import LinkedContracts.Proofs.Filter.Answer
import LinkedContracts.Proofs.Schema.Reading

/-! # What keywords compile to

    The filters of the keywords that hold no schemas, read off the value at
    the path: together they hold exactly when what the keywords ask is met.
    The value at a longer path is a property of the value at the path,
    whether the path is a whole row or not. -/

namespace LinkedContracts

/-! ## Comparisons -/

namespace Comparison

theorem atLeast_compare (m n : Nat) :
    atLeast.holds (compare m n) = decide (n ≤ m) := by
  simp only [holds, compare, compareOfLessAndEq]
  grind

theorem atMost_compare (m n : Nat) :
    atMost.holds (compare m n) = decide (m ≤ n) := by
  simp only [holds, compare, compareOfLessAndEq]
  grind

/-- A comparison of floating-point values is one of their positions. -/
theorem holds_cmp (op : Comparison) (x y : Binary64) :
    op.holds (Binary64.cmp x y) = match op with
      | less => decide (x.position < y.position)
      | atMost => decide (x.position ≤ y.position)
      | greater => decide (y.position < x.position)
      | atLeast => decide (y.position ≤ x.position) := by
  cases op <;> simp only [holds, Binary64.cmp, compare, compareOfLessAndEq] <;>
    grind

end Comparison

/-! ## Values at paths -/

/-- What a schema at a path is read of. -/
def ValuePath.place (path : ValuePath) : Place :=
  if path.isRow then .contract else .value

theorem ValuePath.place_of_row {path : ValuePath} (h : path.isRow = true) :
    path.place = .contract := if_pos h

theorem ValuePath.place_of_value {path : ValuePath} (h : path.isRow = false) :
    path.place = .value := if_neg (by simp [h])

theorem ValuePath.place_child (path : ValuePath) (name : String) :
    (path.child name).place = .value := by
  have h : (path.child name).isRow = false := by
    obtain ⟨scope, keys⟩ := path
    cases scope <;> cases keys <;> rfl
  exact place_of_value h

theorem ValuePath.descend_append (v : Json) (keys : List String)
    (name : String) :
    descend v (keys ++ [name]) = (descend v keys).bind (·.field? name) := by
  induction keys generalizing v with
  | nil =>
      cases h : v.field? name <;> simp [descend, h]
  | cons key rest ih =>
      simp only [List.cons_append, descend]
      cases v.field? key with
      | none => rfl
      | some child => exact ih child

/-- The value at a longer path is a property of the value at the path. -/
theorem Bindings.resolve_child {b : Bindings} {path : ValuePath} {v : Json}
    (hv : b.resolve path = some v) (name : String) :
    b.resolve (path.child name) = path.place.property? v name := by
  obtain ⟨scope, keys⟩ := path
  obtain ⟨bound, hb, hr⟩ := Option.bind_eq_some_iff.mp hv
  have hc : b.resolve (ValuePath.child ⟨scope, keys⟩ name)
      = ValuePath.resolve ⟨scope, keys ++ [name]⟩ bound := by
    simp only [Bindings.resolve, ValuePath.child]
    rw [hb]
    rfl
  rw [hc]
  cases scope with
  | member _ =>
      have hr' : ValuePath.descend bound keys = some v := hr
      show ValuePath.descend bound (keys ++ [name]) = v.field? name
      rw [ValuePath.descend_append, hr']
      rfl
  | row _ =>
      cases keys with
      | nil =>
          obtain rfl : bound = v := Option.some.inj hr
          simp [ValuePath.resolve, ValuePath.place, ValuePath.isRow,
            Place.property?, ValuePath.descend]
      | cons column rest =>
          simp only [ValuePath.resolve] at hr
          split at hr
          · next hcol =>
              simp only [List.cons_append, ValuePath.resolve, if_pos hcol,
                ValuePath.descend_append, hr]
              rfl
          · cases hr

/-- The value bound last is the value of its scope. -/
theorem Bindings.resolve_row (name : String) (v : Json) (b : Bindings) :
    Bindings.resolve ((name, v) :: b) (.row name) = some v := by
  simp [Bindings.resolve, ValuePath.row, Scope.name, ValuePath.resolve,
    ValuePath.descend]

theorem Bindings.resolve_member (name : String) (v : Json) (b : Bindings) :
    Bindings.resolve ((name, v) :: b) (.member name) = some v := by
  simp [Bindings.resolve, ValuePath.member, Scope.name, ValuePath.resolve,
    ValuePath.descend]

/-- The value of a whole row is what its scope is bound to. -/
theorem Bindings.lookup_of_isRow {b : Bindings} {path : ValuePath} {v : Json}
    (hv : b.resolve path = some v) (hrow : path.isRow = true) :
    b.lookup path.scope.name = some v := by
  obtain ⟨bound, hb, hr⟩ := Option.bind_eq_some_iff.mp hv
  obtain ⟨scope, keys⟩ := path
  cases scope with
  | member _ => cases hrow
  | row _ =>
      cases keys with
      | nil =>
          obtain rfl : bound = v := Option.some.inj hr
          exact hb
      | cons _ _ => cases hrow

namespace Schema

open LinkedContracts.Filter

variable {links : Json → String → List Json} {b : Bindings}
  {path : ValuePath} {v : Json}

/-! ## Keywords without schemas -/

/-- On a value, a condition on one type asks nothing of the other types. -/
theorem answer_onlyFor (hv : b.resolve path = some v) (t : JsonType)
    (fs : List Filter) :
    (onlyFor t path fs).answer links b
      = match path.place with
        | .contract => !decide (t = .object) || fs.all fun f => f.answer links b
        | .value => !t.holds v || fs.all fun f => f.answer links b := by
  simp only [onlyFor]
  cases hf : (ofAll fs).isAlways with
  | true =>
      have hall : fs.all (fun f => f.answer links b) = true := by
        rw [← answer_ofAll, eq_always hf, answer_always]
      rw [hall, if_pos rfl]
      cases path.place <;> simp
  | false =>
      rw [if_neg (by simp)]
      cases hrow : path.isRow with
      | true =>
          simp only [ValuePath.place, hrow, if_true]
          split
          · next ht => simp [ht, answer_ofAll]
          · next ht => simp [ht]
      | false => simp [ValuePath.place, hrow, hv, answer_ofAll]

/-- The types and values asked for. -/
theorem answer_valueFilters (kw : Keywords Schema)
    (hv : b.resolve path = some v) :
    (valueFilters kw path).all (fun f => f.answer links b)
      = (kw.types.all (fun ts => ts.toList.any (path.place.hasType v))
        && kw.const.all v.equal
        && kw.enum.all (fun values => values.any v.equal)) := by
  have types (ts : List JsonType) : (typeFilter path ts).answer links b
      = ts.any (path.place.hasType v) := by
    simp only [typeFilter]
    cases hrow : path.isRow with
    | true =>
        have hany : ts.any (Place.contract.hasType v) = decide (.object ∈ ts) := by
          rw [Bool.eq_iff_iff]
          simp [Place.hasType]
        simp only [ValuePath.place, hrow, if_true, hany]
        split
        · next h => simp [h]
        · next h => simp [h]
    | false =>
        simp only [ValuePath.place, hrow, Bool.false_eq_true, if_false,
          answer_typeIs, hv, Option.any_some]
        rfl
  cases ht : kw.types <;> cases hc : kw.const <;> cases he : kw.enum <;>
    simp [valueFilters, ht, hc, he, types, hv, Bool.and_assoc]

/-- The patterns of a keyword, on a string. -/
theorem answer_patterns [TextLibrary] {α : Type} {value : Option α} {source : α → String}
    {ignoreCase : α → Bool} {fs : List Filter} {s : String}
    (hv : b.resolve path = some (.string s))
    (h : forEach value (fun a => patternFilter path (source a) (ignoreCase a))
      = .ok fs) :
    fs.all (fun f => f.answer links b)
      = value.all fun a => Keywords.matchesPattern (source a) (ignoreCase a) s := by
  cases value with
  | none =>
      obtain rfl := Except.ok.inj h
      rfl
  | some a =>
      simp only [forEach, patternFilter] at h
      cases hp : Pattern.ofSource? (source a) (ignoreCase a) with
      | none => rw [hp] at h; cases h
      | some re =>
          rw [hp] at h
          obtain rfl := Except.ok.inj h
          simp [hv, Keywords.matchesPattern, hp, Json.asText]

/-- The keywords for strings, on a string. -/
theorem answer_stringFilters [TextLibrary] {kw : Keywords Schema} {fs : List Filter}
    {s : String} (hv : b.resolve path = some (.string s))
    (h : stringFilters kw path = .ok fs) :
    fs.all (fun f => f.answer links b) = kw.stringMeets s := by
  simp only [stringFilters, bind, Except.bind] at h
  split at h
  · cases h
  · next pattern hp =>
      split at h
      · cases h
      · next regexp hr =>
          split at h
          · cases h
          · next format hf =>
              obtain rfl := Except.ok.inj h
              rw [List.all_append, List.all_append, List.all_append,
                List.all_append, answer_patterns hv hp, answer_patterns hv hr,
                answer_patterns hv hf]
              have least : (kw.minLength.toList.map
                  (Filter.length path .atLeast)).all (fun f => f.answer links b)
                  = kw.minLength.all fun n => decide (n ≤ s.length) := by
                cases kw.minLength <;>
                  simp [hv, Json.asText, Comparison.atLeast_compare]
              have most : (kw.maxLength.toList.map
                  (Filter.length path .atMost)).all (fun f => f.answer links b)
                  = kw.maxLength.all fun n => decide (s.length ≤ n) := by
                cases kw.maxLength <;>
                  simp [hv, Json.asText, Comparison.atMost_compare]
              rw [least, most]
              rfl

/-- The keywords for numbers, on a number. -/
theorem answer_numberFilters (kw : Keywords Schema) {n : Number}
    (hv : b.resolve path = some (.number n)) :
    (numberFilters kw path).all (fun f => f.answer links b)
      = kw.numberMeets n := by
  have bounds (o : Option Binary64) (op : Comparison) :
      (o.toList.map (Filter.bound path op)).all (fun f => f.answer links b)
        = o.all fun x => op.holds (Binary64.cmp n.toDouble x) := by
    cases o <;> simp [hv, boundHolds]
  rw [numberFilters, List.all_append, List.all_append, List.all_append,
    bounds, bounds, bounds, bounds, Keywords.numberMeets]
  simp only [Comparison.holds_cmp]

/-- The keywords for the number of items, on an array. -/
theorem answer_countFilters (kw : Keywords Schema) {items : List Json}
    (hv : b.resolve path = some (.array items)) :
    (countFilters kw path).all (fun f => f.answer links b)
      = (kw.minItems.all (fun n => n ≤ items.length)
        && kw.maxItems.all (fun n => items.length ≤ n)) := by
  rw [countFilters, List.all_append]
  cases kw.minItems <;> cases kw.maxItems <;>
    simp [hv, itemCountHolds, Comparison.atLeast_compare,
      Comparison.atMost_compare]

/-- The keywords for strings and numbers, on whatever is read. -/
theorem answer_scalars [TextLibrary] {kw : Keywords Schema} {strings : List Filter}
    (hv : b.resolve path = some v) (h : stringFilters kw path = .ok strings) :
    ((onlyFor .string path strings).answer links b
        && (onlyFor .number path (numberFilters kw path)).answer links b)
      = kw.scalarMeets path.place v := by
  rw [answer_onlyFor hv, answer_onlyFor hv]
  cases path.place with
  | contract => rfl
  | value =>
      cases v with
      | string s => simp [JsonType.holds, answer_stringFilters hv h,
          Keywords.scalarMeets]
      | number n => simp [JsonType.holds, answer_numberFilters kw hv,
          Keywords.scalarMeets]
      | _ => rfl

/-- The properties that have to be there. -/
theorem answer_requiredFilters (kw : Keywords Schema)
    (hv : b.resolve path = some v) :
    (requiredFilters kw path).all (fun f => f.answer links b)
      = (kw.required.getD []).all fun name =>
          (path.place.property? v name).isSome := by
  simp only [requiredFilters, List.all_map, Function.comp_def, answer_present,
    Bindings.resolve_child hv, Option.any_true]

/-- The text search. -/
theorem answer_searchFilters (kw : Keywords Schema)
    (hv : b.resolve path = some v) :
    (searchFilters kw path).all (fun f => f.answer links b)
      = (kw.fullTextSearch.bind FullTextSearch.term?).all
          (Text.matchesTerm v.asText) := by
  rw [searchFilters]
  cases kw.fullTextSearch.bind FullTextSearch.term? <;> simp [hv]

end Schema

end LinkedContracts
