import LinkedContracts.Filter.Eval

/-! # The answer of a filter

    Evaluation visits every branch and collects the contracts it finds on
    the way.  Where the linked contracts are always known it cannot fail,
    and its answer alone has one equation for each kind of filter: the
    connectives of logic, a test of the value at a path, and a quantifier
    over members or linked contracts. -/

namespace LinkedContracts

/-- The source of linked contracts that are always known. -/
def LinkSource.known (links : Json → String → List Json) : LinkSource :=
  fun parent linkType => .ok (links parent linkType)

/-- Steps that all succeed, one after the other. -/
theorem mapM_ok {α β : Type} {f : α → Except Error β} {g : α → β}
    (h : ∀ a, f a = .ok (g a)) (l : List α) : l.mapM f = .ok (l.map g) := by
  induction l with
  | nil => rfl
  | cons a rest ih =>
      rw [List.mapM_cons, h a, ih]
      rfl

/-- What is kept by a test is there if the test holds somewhere. -/
theorem not_isEmpty_filter {α : Type} (l : List α) (p : α → Bool) :
    (!(l.filter p).isEmpty) = l.any p := by
  induction l with
  | nil => rfl
  | cons a rest ih => cases h : p a <;> simp [h, ih]

namespace Filter

variable {links : Json → String → List Json}

/-- The outcome of a filter when the linked contracts are known. -/
def outcome (links : Json → String → List Json) (f : Filter) (b : Bindings) :
    Outcome :=
  match f.eval (.known links) b with
  | .ok o => o
  | .error _ => .plain false

/-- Whether a filter holds when the linked contracts are known. -/
def answer (links : Json → String → List Json) (f : Filter) (b : Bindings) :
    Bool :=
  (f.outcome links b).holds

private theorem eval_eq_ok {f : Filter} {b : Bindings}
    (h : ∃ o, f.eval (.known links) b = .ok o) :
    f.eval (.known links) b = .ok (f.outcome links b) := by
  obtain ⟨o, ho⟩ := h
  rw [outcome, ho]

private theorem each_total {f : Filter} (p : ValuePath) (members : Members)
    (quantifier : Quantifier) (name : String) (b : Bindings)
    (h : ∀ b, ∃ o, f.eval (.known links) b = .ok o) :
    ∃ o, (each p members quantifier name f).eval (.known links) b = .ok o := by
  simp only [eval]
  cases (b.resolve p).bind members.of? with
  | none => exact ⟨_, rfl⟩
  | some values =>
      simp only [mapM_ok fun v => eval_eq_ok (h ((name, v) :: b))]
      cases quantifier with
      | all => exact ⟨_, rfl⟩
      | some => exact ⟨_, rfl⟩

private theorem linked_total {f : Filter} (parent linkType joined : String)
    (b : Bindings) (h : ∀ b, ∃ o, f.eval (.known links) b = .ok o) :
    ∃ o, (linked parent linkType joined f).eval (.known links) b = .ok o := by
  simp only [eval]
  cases b.lookup parent with
  | none => exact ⟨_, rfl⟩
  | some row =>
      have step : ∀ c, (f.eval (.known links) ((joined, c) :: b)).map (c, ·)
          = .ok (c, f.outcome links ((joined, c) :: b)) := fun c => by
        rw [eval_eq_ok (h _)]
        rfl
      simp only [LinkSource.known, mapM_ok step]
      exact ⟨_, rfl⟩

mutual

private theorem eval_total (links : Json → String → List Json) :
    ∀ (f : Filter) (b : Bindings), ∃ o, f.eval (.known links) b = .ok o
  | always, _ | never, _ | present _, _ | typeIs _ _, _ | equals _ _, _
  | oneOf _ _, _ | pattern _ _, _ | bound _ _ _, _ | length _ _ _, _
  | itemCount _ _ _, _ | fullText _ _, _ => ⟨_, rfl⟩
  | conj fs, b | disj fs, b => by
      obtain ⟨os, h⟩ := evalAll_total links fs b
      simp only [eval, h]
      exact ⟨_, rfl⟩
  | neg f, b => by
      obtain ⟨o, h⟩ := eval_total links f b
      simp only [eval, h]
      exact ⟨_, rfl⟩
  | each p members quantifier name f, b =>
      each_total p members quantifier name b (eval_total links f)
  | linked parent linkType joined f, b =>
      linked_total parent linkType joined b (eval_total links f)

private theorem evalAll_total (links : Json → String → List Json) :
    ∀ (fs : List Filter) (b : Bindings),
      ∃ os, evalAll (.known links) fs b = .ok os
  | [], _ => ⟨_, rfl⟩
  | f :: rest, b => by
      obtain ⟨o, h⟩ := eval_total links f b
      obtain ⟨os, hs⟩ := evalAll_total links rest b
      simp only [evalAll, h, hs]
      exact ⟨_, rfl⟩

end

/-- Evaluation does not fail when the linked contracts are known. -/
theorem eval_known (f : Filter) (b : Bindings) :
    f.eval (.known links) b = .ok (f.outcome links b) :=
  eval_eq_ok (eval_total links f b)

/-- The outcomes of several filters. -/
theorem evalAll_known (fs : List Filter) (b : Bindings) :
    evalAll (.known links) fs b = .ok (fs.map fun f => f.outcome links b) := by
  induction fs with
  | nil => rfl
  | cons f rest ih =>
      simp only [evalAll, eval_known, ih]
      rfl

/-- Deciding a contract does not fail, and finds something to return where
    the filter holds. -/
theorem matchContract_known (f : Filter) (name : String) (c : Json) :
    f.matchContract (.known links) name c
      = .ok (if f.answer links [(name, c)] then
          some (f.outcome links [(name, c)]).found else none) := by
  rw [matchContract, eval_known]
  rfl

/-! ## Equations -/

/-- An answer is what evaluation says. -/
theorem answer_of_eval {f : Filter} {b : Bindings} {o : Outcome}
    (h : f.eval (.known links) b = .ok o) : f.answer links b = o.holds := by
  rw [answer, outcome, h]

@[simp] theorem answer_always (b : Bindings) : always.answer links b = true :=
  rfl

@[simp] theorem answer_never (b : Bindings) : never.answer links b = false :=
  rfl

@[simp] theorem answer_conj (fs : List Filter) (b : Bindings) :
    (conj fs).answer links b = fs.all fun f => f.answer links b := by
  have h : (conj fs).eval (.known links) b
      = .ok (.all (fs.map fun f => f.outcome links b)) := by
    simp only [eval, evalAll_known]
    rfl
  rw [answer_of_eval h]
  simp [Outcome.all, List.all_map, answer, Function.comp_def]

@[simp] theorem answer_disj (fs : List Filter) (b : Bindings) :
    (disj fs).answer links b = fs.any fun f => f.answer links b := by
  have h : (disj fs).eval (.known links) b
      = .ok (.any (fs.map fun f => f.outcome links b)) := by
    simp only [eval, evalAll_known]
    rfl
  rw [answer_of_eval h]
  simp [Outcome.any, List.any_map, answer, Function.comp_def]

@[simp] theorem answer_neg (f : Filter) (b : Bindings) :
    (neg f).answer links b = !f.answer links b := by
  have h : (neg f).eval (.known links) b
      = .ok (.plain (!(f.outcome links b).holds)) := by
    simp only [eval, eval_known]
    rfl
  rw [answer_of_eval h]
  rfl

@[simp] theorem answer_present (p : ValuePath) (b : Bindings) :
    (present p).answer links b = (b.resolve p).any fun _ => true := rfl

@[simp] theorem answer_typeIs (p : ValuePath) (ts : List JsonType)
    (b : Bindings) :
    (typeIs p ts).answer links b
      = (b.resolve p).any fun v => ts.any (·.holds v) := rfl

@[simp] theorem answer_equals (p : ValuePath) (value : Json) (b : Bindings) :
    (equals p value).answer links b = (b.resolve p).any (·.equal value) := rfl

@[simp] theorem answer_oneOf (p : ValuePath) (values : List Json)
    (b : Bindings) :
    (oneOf p values).answer links b
      = (b.resolve p).any fun v => values.any v.equal := rfl

@[simp] theorem answer_pattern (p : ValuePath) (re : Pattern) (b : Bindings) :
    (pattern p re).answer links b
      = (b.resolve p).any fun v => re.matchesIn v.asText := rfl

@[simp] theorem answer_bound (p : ValuePath) (op : Comparison)
    (value : Binary64) (b : Bindings) :
    (bound p op value).answer links b = (b.resolve p).any (boundHolds op value) :=
  rfl

@[simp] theorem answer_length (p : ValuePath) (op : Comparison) (value : Nat)
    (b : Bindings) :
    (length p op value).answer links b
      = (b.resolve p).any
          fun v => op.holds (compare v.asText.length value) := rfl

@[simp] theorem answer_itemCount (p : ValuePath) (op : Comparison)
    (value : Nat) (b : Bindings) :
    (itemCount p op value).answer links b
      = (b.resolve p).any (itemCountHolds op value) := rfl

@[simp] theorem answer_fullText (p : ValuePath) (term : String)
    (b : Bindings) :
    (fullText p term).answer links b
      = (b.resolve p).any fun v => Text.matchesTerm v.asText term := rfl

/-- All members have to meet the filter, if there are members of the
    kind. -/
theorem answer_each_all (p : ValuePath) (members : Members) (name : String)
    (f : Filter) (b : Bindings) :
    (each p members .all name f).answer links b
      = ((b.resolve p).bind members.of?).all
          fun values => values.all fun v => f.answer links ((name, v) :: b) := by
  cases hm : (b.resolve p).bind members.of? with
  | none =>
      have h : (each p members .all name f).eval (.known links) b
          = .ok (.plain true) := by
        simp only [eval, hm]
        rfl
      rw [answer_of_eval h]
      rfl
  | some values =>
      have h : (each p members .all name f).eval (.known links) b
          = .ok (.all (values.map
              fun v => f.outcome links ((name, v) :: b))) := by
        simp only [eval, hm, mapM_ok fun v => eval_known f ((name, v) :: b)]
        rfl
      rw [answer_of_eval h]
      simp [Outcome.all, List.all_map, answer, Function.comp_def]

/-- Some member has to meet the filter. -/
theorem answer_each_some (p : ValuePath) (members : Members) (name : String)
    (f : Filter) (b : Bindings) :
    (each p members .some name f).answer links b
      = ((b.resolve p).bind members.of?).any
          fun values => values.any fun v => f.answer links ((name, v) :: b) := by
  cases hm : (b.resolve p).bind members.of? with
  | none =>
      have h : (each p members .some name f).eval (.known links) b
          = .ok (.plain false) := by
        simp only [eval, hm]
        rfl
      rw [answer_of_eval h]
      rfl
  | some values =>
      have h : (each p members .some name f).eval (.known links) b
          = .ok (.any (values.map
              fun v => f.outcome links ((name, v) :: b))) := by
        simp only [eval, hm, mapM_ok fun v => eval_known f ((name, v) :: b)]
        rfl
      rw [answer_of_eval h]
      simp [Outcome.any, List.any_map, answer, Function.comp_def]

/-- Some active contract linked to the row has to meet the filter. -/
theorem answer_linked (parent linkType joined : String) (f : Filter)
    (b : Bindings) {row : Json} (hrow : b.lookup parent = some row) :
    (linked parent linkType joined f).answer links b
      = ((links row linkType).filter Json.isActive).any
          fun c => f.answer links ((joined, c) :: b) := by
  have step : ∀ c, (f.eval (.known links) ((joined, c) :: b)).map (c, ·)
      = .ok (c, f.outcome links ((joined, c) :: b)) := fun c => by
    rw [eval_known]
    rfl
  have h : (linked parent linkType joined f).eval (.known links) b
      = .ok (linkOutcome joined row
          (((links row linkType).filter Json.isActive).map
            fun c => (c, f.outcome links ((joined, c) :: b)))) := by
    simp only [eval, hrow, LinkSource.known, mapM_ok step]
    rfl
  rw [answer_of_eval h, linkOutcome]
  simp only [not_isEmpty_filter, List.any_map, Function.comp_def, answer]

/-- Only one filter counts as the one that always holds. -/
theorem eq_always {f : Filter} (h : f.isAlways = true) : f = always := by
  cases f with
  | always => rfl
  | _ => cases h

/-- Leaving out members that always hold does not change a conjunction. -/
theorem answer_ofAll (fs : List Filter) (b : Bindings) :
    (ofAll fs).answer links b = fs.all fun f => f.answer links b := by
  have drop : (fs.filter fun f => !f.isAlways).all (fun f => f.answer links b)
      = fs.all fun f => f.answer links b := by
    induction fs with
    | nil => rfl
    | cons f rest ih =>
        cases hf : f.isAlways with
        | true =>
            rw [List.filter_cons_of_neg (by simp [hf]), ih, List.all_cons,
              eq_always hf, answer_always, Bool.true_and]
        | false =>
            rw [List.filter_cons_of_pos (by simp [hf]), List.all_cons, ih,
              List.all_cons]
  rw [← drop, ofAll]
  split
  · next h => simp [h]
  · next f h => simp [h]
  · next h => rw [answer_conj]

end Filter

end LinkedContracts
