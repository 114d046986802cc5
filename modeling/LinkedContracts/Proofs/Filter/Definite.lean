import LinkedContracts.Proofs.Compile.Keywords
import LinkedContracts.Proofs.Filter.Condition
import LinkedContracts.Proofs.Text.Words

/-! # Filters whose conditions are never NULL

    A test of a value that is not there is NULL in a statement and false
    where filters are decided.  A filter is definite where the two agree:
    its condition has a truth value, which is the answer of the filter, given
    of the linked rows those that say that they are active.  Where a row does
    not say so, a statement drops it, and the evaluator does not.

    Tests are definite where there is a value.  Connectives keep definite
    filters definite, and a test of a guard makes room for a filter that is
    definite only where the guard holds.  Quantifiers and links bind the
    value that the filter below them is about, so they are definite
    everywhere. -/

namespace LinkedContracts

open Sql

variable {links : Json → String → List Json} {b : Bindings}
  {path : ValuePath} {v : Json}

/-! ## Comparisons with parameters -/

/-- Counts compare the same as integers. -/
theorem compare_natCast (m n : Nat) : compare (m : Int) n = compare m n := by
  simp only [compare, compareOfLessAndEq]
  grind

/-- A parameter stands where the parameters before it end. -/
theorem getElem?_parameter (before params after : List Json) {i : Nat}
    (hi : i < params.length) :
    (before ++ params ++ after)[before.length + i]? = params[i]? := by
  rw [List.append_assoc, List.getElem?_append_right (by omega),
    List.getElem?_append_left (by omega)]
  simp

/-- A comparison of a value that is there with the parameter of its own. -/
theorem Sql.Condition.value_test [TextLibrary] (op : Operator) (hv : b.resolve path = some v)
    (w : Json) (before after : List Json) :
    (Condition.test op path before.length).value links (before ++ [w] ++ after) b
      = some (op.holds v w) := by
  have hw : (before ++ [w] ++ after)[before.length]? = some w :=
    getElem?_parameter before [w] after (i := 0) (by simp)
  show Truth.strict op.holds (b.resolve path) _ = _
  rw [hv, hw]
  rfl

/-- A value that is there is one of several parameters or it is not. -/
theorem Sql.Condition.value_among [TextLibrary] (hv : b.resolve path = some v)
    (params before after : List Json) :
    (Condition.among path before.length params.length).value links
        (before ++ params ++ after) b
      = some (params.any v.equal) := by
  have each : (List.range params.length).map (fun i =>
        Truth.strict Json.equal (b.resolve path)
          (before ++ params ++ after)[before.length + i]?)
      = params.map fun w => some (v.equal w) := by
    refine List.ext_getElem (by simp) fun i h _ => ?_
    have hi : i < params.length := by simpa using h
    simp only [List.getElem_map, List.getElem_range, hv,
      getElem?_parameter before params after hi, List.getElem?_eq_getElem hi]
    rfl
  show Truth.any _ = _
  rw [each, Truth.any_some]

namespace Filter

section

variable [TextLibrary]

/-- Wherever the condition of a filter stands in a statement, it is not NULL
    but the answer of the filter, given the linked rows that are active. -/
def Definite (links : Json → String → List Json) (f : Filter) (b : Bindings) :
    Prop :=
  ∀ before after : List Json,
    (f.condition before.length).value links (before ++ f.parameters ++ after) b
      = some (f.answer (activeOnly links) b)

/-! ## Connectives -/

theorem definite_always : always.Definite links b := fun _ _ => rfl

theorem definite_never : never.Definite links b := fun _ _ => rfl

/-- The first of several conditions has its parameters before those of the
    others. -/
theorem values_conditions_cons (f : Filter) (rest : List Filter)
    (b : Bindings) (before after : List Json) :
    Condition.values links (before ++ parametersAll (f :: rest) ++ after)
        (conditions (f :: rest) before.length) b
      = Condition.value links
          (before ++ f.parameters ++ (parametersAll rest ++ after))
          (f.condition before.length) b
        :: Condition.values links
          (before ++ f.parameters ++ parametersAll rest ++ after)
          (conditions rest (before ++ f.parameters).length) b := by
  have split : before ++ f.parameters ++ (parametersAll rest ++ after)
      = before ++ parametersAll (f :: rest) ++ after := by
    simp only [parametersAll, List.append_assoc]
  rw [split, List.length_append, List.append_assoc before f.parameters]
  rfl

/-- What the conditions of definite filters come to. -/
theorem values_conditions {fs : List Filter}
    (h : ∀ f ∈ fs, f.Definite links b) (before after : List Json) :
    Condition.values links (before ++ parametersAll fs ++ after)
        (conditions fs before.length) b
      = fs.map fun f => some (f.answer (activeOnly links) b) := by
  induction fs generalizing before with
  | nil => rfl
  | cons f rest ih =>
      obtain ⟨hf, hrest⟩ := List.forall_mem_cons.mp h
      rw [values_conditions_cons, hf, ih hrest, List.map_cons]

theorem definite_conj {fs : List Filter} (h : ∀ f ∈ fs, f.Definite links b) :
    (conj fs).Definite links b := by
  intro before after
  show Truth.all (Condition.values _ (before ++ parametersAll fs ++ after) _ b) = _
  rw [values_conditions h, Truth.all_some, answer_conj]

theorem definite_disj {fs : List Filter} (h : ∀ f ∈ fs, f.Definite links b) :
    (disj fs).Definite links b := by
  intro before after
  show Truth.any (Condition.values _ (before ++ parametersAll fs ++ after) _ b) = _
  rw [values_conditions h, Truth.any_some, answer_disj]

theorem definite_neg {f : Filter} (h : f.Definite links b) :
    (neg f).Definite links b := by
  intro before after
  show Truth.not (Condition.value _ (before ++ f.parameters ++ after) _ b) = _
  rw [h, Truth.not_some, answer_neg]

/-- A filter that holds where its guard does not has to be definite only
    where the guard holds: TRUE or NULL is TRUE. -/
theorem definite_unless {guard f : Filter} (hguard : guard.Definite links b)
    (h : guard.answer (activeOnly links) b = true → f.Definite links b) :
    (disj [neg guard, f]).Definite links b := by
  cases hanswer : guard.answer (activeOnly links) b with
  | true =>
      have both : ∀ g ∈ [neg guard, f], g.Definite links b := by
        simpa using ⟨definite_neg hguard, h hanswer⟩
      exact definite_disj both
  | false =>
      -- the negated guard is TRUE, which settles the disjunction
      intro before after
      show Truth.any (Condition.values _
        (before ++ parametersAll [neg guard, f] ++ after) _ b) = _
      rw [values_conditions_cons, definite_neg hguard, answer_neg, hanswer]
      simp [Truth.any, hanswer]

/-! ## Tests -/

/-- Whether there is a value is never NULL. -/
theorem definite_present : (present path).Definite links b := by
  intro before after
  show some (b.resolve path).isSome = _
  rw [answer_present, Option.any_true]

/-- The test of a type of a value that is there. -/
theorem value_typeCondition (hv : b.resolve path = some v) (params : List Json)
    (t : JsonType) :
    (typeCondition path t).value links params b = some (t.holds v) := by
  have named (name : String) :
      (Condition.typeIs path name).value links params b
        = some (v.typeName == name) := by
    show (b.resolve path).map _ = _
    rw [hv]
    rfl
  cases t with
  | integer =>
      -- a number of either kind has the type, and then it has to be whole
      show (if (Condition.value links params (.typeIs path "number") b).holds
        then (b.resolve path).map JsonType.integer.holds else some false) = _
      rw [named, hv]
      cases v <;> rfl
  | _ => exact (named _).trans (by cases v <;> rfl)

theorem definite_typeIs (hv : b.resolve path = some v) (ts : List JsonType) :
    (typeIs path ts).Definite links b := by
  intro before after
  show Truth.any (Condition.values _ _ (ts.map (typeCondition path)) b) = _
  rw [Condition.values_eq_map, List.map_map]
  simp only [Function.comp_def, value_typeCondition hv]
  rw [Truth.any_some, answer_typeIs, hv, Option.any_some]

theorem definite_equals (hv : b.resolve path = some v) (w : Json) :
    (equals path w).Definite links b := by
  intro before after
  refine (Condition.value_test .equal hv w before after).trans ?_
  rw [answer_equals, hv]
  rfl

theorem definite_oneOf (hv : b.resolve path = some v) (ws : List Json) :
    (oneOf path ws).Definite links b := by
  intro before after
  rw [answer_oneOf, hv, Option.any_some]
  cases ws with
  | nil => rfl
  | cons w rest => exact Condition.value_among hv (w :: rest) before after

/-- A pattern is read again from its source. -/
theorem definite_pattern (hv : b.resolve path = some v) {source : String}
    {ignoreCase : Bool} {re : Pattern}
    (hre : Pattern.ofSource? source ignoreCase = some re) :
    (pattern path re).Definite links b := by
  intro before after
  have kept : re.source = source ∧ re.ignoresCase = ignoreCase := by
    obtain ⟨regex, -, rfl⟩ := Option.map_eq_some_iff.mp hre
    exact ⟨rfl, rfl⟩
  refine (Condition.value_test (.pattern re.ignoresCase) hv (.string re.source)
    before after).trans ?_
  rw [answer_pattern, hv, Option.any_some, Operator.holds, kept.1, kept.2, hre,
    Option.any_some]

/-- A choice by type that fails on values of other types. -/
theorem value_choose_typeIs (hv : b.resolve path = some v) (type : String)
    {yes : Condition} {params : List Json} {x : Bool}
    (hyes : yes.value links params b = some x)
    (hother : v.typeName ≠ type → x = false) :
    (Condition.choose (.typeIs path type) yes (.const false)).value links params b
      = some x := by
  show (if Truth.holds ((b.resolve path).map fun v => v.typeName == type)
    then Condition.value links params yes b else some false) = _
  rw [hv, Option.map_some, Truth.holds_some, hyes]
  split
  · rfl
  · next htype => rw [hother (by simpa using htype)]

theorem definite_bound (hv : b.resolve path = some v) (op : Comparison)
    (x : Binary64) : (bound path op x).Definite links b := by
  intro before after
  refine (value_choose_typeIs hv "number" (Condition.value_test (.number op) hv
    (.number (.double x)) before after) fun htype => ?_).trans ?_
  · cases v with
    | number n => exact absurd rfl htype
    | _ => rfl
  · rw [answer_bound, hv]
    rfl

theorem definite_length (hv : b.resolve path = some v) (op : Comparison)
    (n : Nat) : (length path op n).Definite links b := by
  intro before after
  refine (Condition.value_test (.length op) hv (.ofNat n) before after).trans ?_
  rw [answer_length, hv, Option.any_some]
  show some (op.holds (compare (v.asText.length : Int) n)) = _
  rw [compare_natCast]

theorem definite_itemCount (hv : b.resolve path = some v) (op : Comparison)
    (n : Nat) : (itemCount path op n).Definite links b := by
  intro before after
  refine (value_choose_typeIs hv "array" (Condition.value_test (.items op) hv
    (.ofNat n) before after) fun htype => ?_).trans ?_
  · cases v with
    | array items => exact absurd rfl htype
    | _ => rfl
  · rw [answer_itemCount, hv, Option.any_some]
    cases v with
    | array items =>
        show some (op.holds (compare (items.length : Int) n)) = _
        rw [compare_natCast]
        rfl
    | _ => rfl

theorem definite_fullText (hv : b.resolve path = some v) (term : String) :
    (fullText path term).Definite links b := by
  intro before after
  refine (Condition.value_test .search hv
    (.string (Text.searchExpression term)) before after).trans ?_
  rw [answer_fullText, hv, Option.any_some, Operator.holds,
    Text.matchesTerm_searchExpression]

end

/-! ## Quantifiers and links -/

/-- The members are there where the type is theirs. -/
theorem isSome_members (members : Members) (v : Json) :
    (members.of? v).isSome = (v.typeName == memberType members) := by
  cases members <;> cases v <;> rfl

/-- The test of the type of the members is TRUE where there are members. -/
theorem holds_memberType [TextLibrary] (members : Members) (p : ValuePath)
    (params : List Json) (b : Bindings) :
    ((Condition.typeIs p (memberType members)).value links params b).holds
      = ((b.resolve p).bind members.of?).isSome := by
  show Truth.holds ((b.resolve p).map _) = _
  cases b.resolve p with
  | none => rfl
  | some v =>
      rw [Option.map_some, Truth.holds_some, Option.bind_some, isSome_members]

/-- A quantifier over members, where the filter on a member is definite
    whatever the member is. -/
theorem definite_each [TextLibrary] (p : ValuePath) (members : Members)
    (quantifier : Quantifier) {name : String} {f : Filter} (b : Bindings)
    (h : ∀ v, f.Definite links ((name, v) :: b)) :
    (each p members quantifier name f).Definite links b := by
  intro before after
  have part (v : Json) := h v before after
  cases quantifier with
  | all =>
      rw [answer_each_all]
      show (if (Condition.value _ _ (.typeIs p (memberType members)) b).holds
        then _ else _) = _
      rw [holds_memberType]
      cases hm : (b.resolve p).bind members.of? with
      | none => rfl
      | some rows =>
          -- no row fails, as no row is NULL
          show some ((((b.resolve p).bind members.of?).getD []).any (fun v =>
            (Truth.not (Condition.value _ (before ++ f.parameters ++ after) _
              ((name, v) :: b))).holds) != true) = _
          simp only [part]
          simp [hm, List.all_eq_not_any_not]
  | some =>
      rw [answer_each_some]
      show (if (Condition.value _ _ (.typeIs p (memberType members)) b).holds
        then _ else _) = _
      rw [holds_memberType]
      cases hm : (b.resolve p).bind members.of? with
      | none => rfl
      | some rows =>
          show some ((((b.resolve p).bind members.of?).getD []).any (fun v =>
            (Condition.value _ (before ++ f.parameters ++ after) _
              ((name, v) :: b)).holds) != false) = _
          simp only [part]
          simp [hm]

/-- A row is kept if it is active and its condition is TRUE. -/
theorem holds_and {t : Truth} {x : Bool} :
    (Truth.and t (some x)).holds = (t.holds && x) := by
  match t with
  | none => cases x <;> rfl
  | some y => cases x <;> cases y <;> rfl

/-- A link, where the filter on the linked contract is definite whatever the
    contract is. -/
theorem definite_linked [TextLibrary] (parent linkType : String) {joined : String}
    {f : Filter} (b : Bindings)
    (h : ∀ c, f.Definite links ((joined, c) :: b)) :
    (linked parent linkType joined f).Definite links b := by
  intro before after
  have part (c : Json) := h c before after
  show some (((b.lookup parent).toList.flatMap fun row => links row linkType).any fun c =>
      (Truth.and c.activeColumn (Condition.value _ (before ++ f.parameters ++ after) _
        ((joined, c) :: b))).holds) = _
  cases hrow : b.lookup parent with
  | none =>
      -- no row is bound to the parent: no contract is linked either way
      have unbound : (linked parent linkType joined f).eval (.known (activeOnly links)) b
          = .ok (.plain false) := by
        simp only [eval, hrow]
      rw [answer_of_eval unbound]
      rfl
  | some row =>
      have hactive : (activeOnly links row linkType).filter Json.isActive
          = activeOnly links row linkType := by
        refine List.filter_eq_self.mpr fun r hr => ?_
        exact isActive_of_holds (List.mem_filter.mp hr).2
      rw [answer_linked _ _ _ _ _ hrow, hactive, activeOnly, List.any_filter]
      simp only [part, holds_and]
      simp

/-! ## Statements and evaluation -/

theorem filter_activeOnly (hflagged : Flagged links) (row : Json) (linkType : String) :
    (activeOnly links row linkType).filter Json.isActive
      = (links row linkType).filter Json.isActive := by
  rw [activeOnly, List.filter_filter]
  refine List.filter_congr fun r hr => ?_
  rw [holds_activeColumn (hflagged row linkType r hr), Bool.and_self]

mutual

/-- Where all linked rows say whether they are active, evaluation needs only those
    that are. -/
theorem eval_activeOnly (hflagged : Flagged links) : ∀ (f : Filter) (b : Bindings),
    f.eval (.known (activeOnly links)) b = f.eval (.known links) b
  | conj fs, b | disj fs, b => by rw [eval, eval, evalAll_activeOnly hflagged fs b]
  | neg f, b => by rw [eval, eval, eval_activeOnly hflagged f b]
  | each _ _ _ name f, b => by
      have hpart (v : Json) := eval_activeOnly hflagged f ((name, v) :: b)
      simp only [eval, hpart]
  | linked _ _ joined f, b => by
      have hpart (c : Json) := eval_activeOnly hflagged f ((joined, c) :: b)
      simp only [eval, hpart, LinkSource.known, bind, Except.bind,
        filter_activeOnly hflagged]
  | always, _ | never, _ | present _, _ | typeIs _ _, _ | equals _ _, _ | oneOf _ _, _
  | pattern _ _, _ | bound _ _ _, _ | length _ _ _, _ | itemCount _ _ _, _
  | fullText _ _, _ => rfl

theorem evalAll_activeOnly (hflagged : Flagged links) : ∀ (fs : List Filter) (b : Bindings),
    evalAll (.known (activeOnly links)) fs b = evalAll (.known links) fs b
  | [], _ => rfl
  | f :: rest, b => by
      rw [evalAll, evalAll, eval_activeOnly hflagged f b, evalAll_activeOnly hflagged rest b]

end

variable [TextLibrary]

/-- A statement and the evaluator agree on a filter, given what is bound:
    evaluation does not fail, and wherever the filter is rendered, its text is that of
    a condition that is not NULL.  The condition is what evaluation returns, given of
    the linked rows those that are active; if all rows say whether they are, it is
    what evaluation returns. -/
def Agrees (links : Json → String → List Json) (f : Filter)
    (b : Bindings) : Prop :=
  ∃ o kept, f.eval (.known links) b = .ok o
    ∧ f.eval (.known (activeOnly links)) b = .ok kept
    ∧ (Flagged links → kept = o)
    ∧ ∀ (tables : Tables) (before after : List Json),
      f.render tables before.length
          = ((f.condition before.length).text tables, f.parameters)
        ∧ (f.condition before.length).value links
            (before ++ f.parameters ++ after) b = some kept.holds

theorem Definite.agrees {f : Filter} {b : Bindings}
    (h : f.Definite links b) : f.Agrees links b := by
  refine ⟨f.outcome links b, f.outcome (activeOnly links) b, eval_known f b,
    eval_known f b, fun hflagged => ?_, fun tables before after =>
      ⟨render_eq tables f before.length, h before after⟩⟩
  have hsame := eval_activeOnly hflagged f b
  rw [eval_known, eval_known] at hsame
  exact Except.ok.inj hsame

end Filter

end LinkedContracts
