import LinkedContracts.Proofs.Patch.Absent

/-! # What was added

    What an addition puts at a path is found there.  Taking it away again gives
    back the document where there was nothing at the path, and where the path is
    into an array, whose items move apart and together again.

    An addition reads the index of an item with leading zeros, and no other
    operation does: what was added at such a path is not found there. -/

namespace LinkedContracts

namespace Json

theorem equalItems_self {eq : Number → Number → Bool} {items : List Json}
    (h : ∀ x ∈ items, equalBy eq x x = true) : equalItems eq items items = true := by
  induction items with
  | nil => rfl
  | cons x rest ih =>
      obtain ⟨hx, hrest⟩ := List.forall_mem_cons.mp h
      rw [equalItems, hx, ih hrest]
      rfl

/-- Fields equal those that they are found among. -/
theorem equalFields_of_find? {eq : Number → Number → Bool} {xs ys : Dict Json}
    (h : ∀ p ∈ xs, Dict.find? ys p.1 = some p.2 ∧ equalBy eq p.2 p.2 = true) :
    equalFields eq xs ys = true := by
  induction xs with
  | nil => rfl
  | cons p rest ih =>
      obtain ⟨key, x⟩ := p
      obtain ⟨⟨hfind, hx⟩, hrest⟩ := List.forall_mem_cons.mp h
      rw [equalFields, hfind, ih hrest]
      simpa using hx

/-- A document equals itself by value. -/
theorem equal_self {j : Json} (hj : j.WellFormed) : j.equal j = true := by
  induction j using induct with
  | null => rfl
  | bool b => exact beq_self_eq_true b
  | number n => exact beq_self_eq_true n.toDouble.position
  | string s => exact beq_self_eq_true s
  | array items ih =>
      exact equalItems_self fun x hx => ih x hx (hj.of_item hx)
  | object fields ih =>
      have hfields : Dict.Sorted fields := hj.self
      have hequal : equalFields Number.eq fields fields = true := by
        refine equalFields_of_find? fun p hp => ⟨?_, ih p hp (hj.of_field hp)⟩
        exact hfields.find?_eq_some.mpr hp
      show (fields.length == fields.length && equalFields Number.eq fields fields) = true
      rw [hequal, beq_self_eq_true]
      rfl

end Json

namespace Patch

variable {doc changed parent parent' value : Json} {above : List String}
  {token path slug : String} {items : List Json} {op : PatchOperation}

/-! ## Containers -/

/-- An item is added at the index that the token spells. -/
theorem addTo_array_ok (h : addTo value token (.array items) = .ok parent')
    (hlast : token ≠ "-") :
    ∃ i, i ≤ items.length ∧ word? token.toList = some i
      ∧ parent' = .array (items.insertIdx i value) := by
  simp only [addTo, if_neg hlast] at h
  split at h
  · next i hi =>
    split at h
    · next hle => exact ⟨i, hle, hi, (Except.ok.inj h).symm⟩
    · cases h
  · cases h

/-- Whether a token counts an item of an array with leading zeros. -/
def countsPadded (token : String) : Json → Bool
  | .array _ => Pointer.isPadded token
  | _ => false

/-- The index at which an item was added leads to it, without leading zeros. -/
theorem index?_insertIdx {i : Nat} (hi : word? token.toList = some i)
    (hle : i ≤ items.length) :
    Pointer.index? token (items.insertIdx i value).length
      = if Pointer.isPadded token then none else some i := by
  have hinside : i < items.length + 1 := Nat.lt_succ_of_le hle
  rw [Pointer.index?_eq_ite, hi, List.length_insertIdx_of_le_length hle,
    Option.filter_some, if_pos (decide_eq_true hinside)]

/-- What was added to a container is found there, unless it is an array and the
    index has leading zeros. -/
theorem lookup?_addTo (h : addTo value token parent = .ok parent') (hlast : token ≠ "-") :
    parent'.lookup? [token] = if countsPadded token parent then none else some value := by
  cases parent with
  | object fields =>
      obtain rfl := Except.ok.inj h
      rw [Json.lookup?_object, Dict.find?_insert_self]
      rfl
  | array items =>
      obtain ⟨i, hle, hi, rfl⟩ := addTo_array_ok h hlast
      have hitem : (items.insertIdx i value)[i]? = some value :=
        List.getElem?_insertIdx_self.trans (if_pos hle)
      rw [Json.lookup?_array, index?_insertIdx hi hle, countsPadded]
      cases Pointer.isPadded token with
      | true => rfl
      | false => exact hitem
  | _ => cases h

/-- What was added to an array, or to an object that had nothing there, is taken
    away again. -/
theorem removeFrom_addTo (h : addTo value token parent = .ok parent')
    (hlast : token ≠ "-") (htoken : countsPadded token parent = false)
    (hnew : parent.lookup? [token] = none ∨ ∃ items, parent = .array items) :
    removeFrom token parent' = .ok parent := by
  cases parent with
  | object fields =>
      obtain rfl := Except.ok.inj h
      have habsent : Dict.find? fields token = none := by
        rcases hnew with hnew | ⟨items, hnew⟩
        · rwa [Json.lookup?_object] at hnew
        · cases hnew
      have hthere : Dict.contains (Dict.insert fields token value) token = true := by
        simp [Dict.contains]
      rw [removeFrom, if_pos hthere, Dict.erase_insert habsent]
  | array items =>
      obtain ⟨i, hle, hi, rfl⟩ := addTo_array_ok h hlast
      have hindex : Pointer.index? token (items.insertIdx i value).length = some i := by
        rw [countsPadded] at htoken
        rw [index?_insertIdx hi hle, if_neg (Bool.eq_false_iff.mp htoken)]
      simp only [removeFrom, hindex, List.eraseIdx_insertIdx_self]
  | _ => cases h

/-! ## Documents -/

/-- What was added inside a document is found there, unless its path counts an
    item of an array with leading zeros. -/
theorem lookup?_addAt (h : addAt doc (above ++ [token]) value = .ok changed)
    (hlast : token ≠ "-") (hparent : doc.lookup? above = some parent) :
    changed.lookup? (above ++ [token])
      = if countsPadded token parent then none else some value := by
  obtain ⟨found, parent', hfound, hadd, hreplace⟩ := changeParent_ok_iff.mp h
  obtain rfl := Option.some.inj (hparent.symm.trans hfound)
  rw [Json.lookup?_append, Json.lookup?_of_replace? hreplace, Option.bind_some]
  exact lookup?_addTo hadd hlast

theorem removeAt_addAt (hdoc : doc.WellFormed)
    (h : addAt doc (above ++ [token]) value = .ok changed) (hlast : token ≠ "-")
    (hparent : doc.lookup? above = some parent) (htoken : countsPadded token parent = false)
    (hnew : parent.lookup? [token] = none ∨ ∃ items, parent = .array items) :
    removeAt changed (above ++ [token]) = .ok doc := by
  obtain ⟨found, parent', hfound, hadd, hreplace⟩ := changeParent_ok_iff.mp h
  obtain rfl := Option.some.inj (hparent.symm.trans hfound)
  refine changeParent_ok_iff.mpr ⟨parent', parent, ?_, ?_, ?_⟩
  · exact Json.lookup?_of_replace? hreplace
  · exact removeFrom_addTo hadd hlast htoken hnew
  · rw [Json.replace?_of_replace? hreplace, Json.replace?_of_lookup? hdoc hparent]

/-! ## Steps -/

/-- A patch of two operations applies the second to what the first made. -/
theorem apply_two {first : PatchOperation} (h : apply doc [first] = .ok changed)
    (second : PatchOperation) :
    apply doc [first, second] = step ((doc.stringField? "slug").getD "") changed second := by
  obtain ⟨next, hfirst, hnil⟩ := steps_cons h
  obtain rfl := Except.ok.inj hnil
  rw [apply, List.foldlM_cons, hfirst]
  show (step _ next second >>= fun doc => .ok doc) = _
  cases step _ next second <;> rfl

theorem addAt_of_apply (hpath : isImmutable path = false)
    (h : apply doc [.add path value] = .ok changed) :
    ∃ ts, tokens path = .ok ts ∧ addAt doc ts value = .ok changed := by
  obtain ⟨next, hstep, hnil⟩ := steps_cons h
  obtain rfl := Except.ok.inj hnil
  rcases edits_of_step hstep with ⟨hskip, -⟩ | ⟨-, -, happly⟩
  · simp [touchesImmutable, PatchOperation.path, hpath] at hskip
  · exact except_bind_ok happly

/-- An operation that needs something where a path leads nowhere is refused. -/
theorem step_of_absent {ts : List String} (hskip : touchesImmutable op = false)
    (hsource : op.source? = some path) (hparse : Pointer.parse? path = some ts)
    (habsent : doc.lookup? ts = none) :
    step slug doc op = .error (.pathMissing path slug) := by
  simp [step, hskip, checkSource, hsource, hparse, habsent, bind, Except.bind]

theorem step_remove {ts : List String} (hpath : isImmutable path = false)
    (hts : tokens path = .ok ts) (hthere : doc.lookup? ts = some value)
    (hremove : removeAt doc ts = .ok changed) :
    step slug doc (.remove path) = .ok changed := by
  simp [step, touchesImmutable, PatchOperation.path, hpath, checkSource,
    PatchOperation.source?, (tokens_ok hts).1, hthere, applyOperation, hts, hremove, bind,
    Except.bind]

theorem step_test {ts : List String} {actual : Json} (hts : tokens path = .ok ts)
    (hthere : doc.lookup? ts = some actual) (hequal : actual.equal value = true) :
    step slug doc (.test path value) = .ok doc := by
  simp [step, checkSource, PatchOperation.source?, (tokens_ok hts).1, hthere,
    applyOperation, hts, hequal, bind, Except.bind]

/-! ## Patches -/

/-- Whether a path ends at an item of an array that it counts with leading
    zeros. -/
def endsPadded (doc : Json) (path : String) : Bool :=
  (Pointer.parse? path).any fun ts =>
    ts.getLast?.any fun token => (doc.lookup? ts.dropLast).any (countsPadded token)

/-- Whether what is added at a path displaces nothing: the path leads nowhere, or
    to a place in an array. -/
def Inserts (doc : Json) (path : String) : Prop :=
  ∃ ts, Pointer.parse? path = some ts
    ∧ (doc.lookup? ts = none ∨ ∃ items, doc.lookup? ts.dropLast = some (.array items))

theorem Inserts.container (h : Inserts doc path)
    (hparse : Pointer.parse? path = some (above ++ [token]))
    (hparent : doc.lookup? above = some parent) :
    parent.lookup? [token] = none ∨ ∃ items, parent = .array items := by
  obtain ⟨ts, hts, hnew⟩ := h
  obtain rfl := Option.some.inj (hparse.symm.trans hts)
  rw [Json.lookup?_append, List.dropLast_concat, hparent, Option.bind_some] at hnew
  exact hnew.imp_right fun ⟨items, heq⟩ => ⟨items, Option.some.inj heq⟩

/-- What was added is found at its path, and taking it away gives back the
    document where it displaced nothing.  Where the path counts an item of an
    array with leading zeros, the test and the removal find nothing there. -/
theorem found_of_added (hdoc : doc.WellFormed) (hvalue : value.WellFormed)
    (hpath : isImmutable path = false)
    (hlast : ∀ ts, Pointer.parse? path = some ts → ts.getLast? ≠ some "-")
    (h : apply doc [.add path value] = .ok changed) :
    apply doc [.add path value, .test path value]
        = (if endsPadded doc path
          then .error (.pathMissing path ((doc.stringField? "slug").getD ""))
          else .ok changed)
      ∧ (Inserts doc path → apply doc [.add path value, .remove path]
        = if endsPadded doc path
          then .error (.pathMissing path ((doc.stringField? "slug").getD ""))
          else .ok doc) := by
  obtain ⟨ts, hts, hadd⟩ := addAt_of_apply hpath h
  obtain ⟨hparse, hne⟩ := tokens_ok hts
  obtain ⟨above, token, rfl⟩ : ∃ above token, ts = above ++ [token] :=
    ⟨_, _, (List.dropLast_concat_getLast hne).symm⟩
  have htoken : token ≠ "-" := by
    rintro rfl
    exact hlast _ hparse List.getLast?_concat
  obtain ⟨parent, -, hparent, -, -⟩ := changeParent_ok_iff.mp hadd
  have hends : endsPadded doc path = countsPadded token parent := by
    simp [endsPadded, hparse, hparent]
  have hfound := lookup?_addAt hadd htoken hparent
  rw [hends, apply_two h, apply_two h]
  -- the token that the value was added at leads back to it, unless it is padded
  cases hcounts : countsPadded token parent with
  | true =>
      rw [hcounts, if_pos rfl] at hfound
      constructor
      · exact step_of_absent (by simp [touchesImmutable, PatchOperation.path, hpath]) rfl
          hparse hfound
      · intro _
        exact step_of_absent (by simp [touchesImmutable, PatchOperation.path, hpath]) rfl
          hparse hfound
  | false =>
      rw [hcounts, if_neg Bool.false_ne_true] at hfound
      -- without such zeros the addition, the test and the removal count items alike
      constructor
      · exact step_test hts hfound (Json.equal_self hvalue)
      · intro hinserts
        have hnew := hinserts.container hparse hparent
        have hremove := removeAt_addAt hdoc hadd htoken hparent hcounts hnew
        exact step_remove hpath hts hfound hremove

/-- A contract with two tags. -/
def tagged : Json :=
  .object [("slug", .string "card"), ("tags", .array [.string "a", .string "b"])]

theorem wellFormed_tagged : tagged.WellFormed := by
  have htags : (Json.array [.string "a", .string "b"]).WellFormed := by
    refine Json.throughout_array trivial ?_
    simp only [List.forall_mem_cons]
    exact ⟨Json.throughout_string trivial, Json.throughout_string trivial, nofun⟩
  refine Json.throughout_object (show Dict.Sorted _ by decide) ?_
  simp only [List.forall_mem_cons]
  exact ⟨Json.throughout_string trivial, htags, nofun⟩

/-- A tag that is added between two others is found there, and taken away the
    others are as before. -/
theorem found_of_added_tag :
    apply tagged [.add "/tags/1" (.string "new"), .test "/tags/1" (.string "new")]
        = .ok (.object [("slug", .string "card"),
          ("tags", .array [.string "a", .string "new", .string "b"])])
      ∧ apply tagged [.add "/tags/1" (.string "new"), .remove "/tags/1"] = .ok tagged := by
  have hlast (ts : List String) (hparse : Pointer.parse? "/tags/1" = some ts) :
      ts.getLast? ≠ some "-" := by
    obtain rfl : ["tags", "1"] = ts := Option.some.inj hparse
    decide
  have hpath : isImmutable "/tags/1" = false := rfl
  have happly : apply tagged [.add "/tags/1" (.string "new")]
      = .ok (.object [("slug", .string "card"),
        ("tags", .array [.string "a", .string "new", .string "b"])]) := rfl
  obtain ⟨hfound, hremoved⟩ := found_of_added wellFormed_tagged
    (Json.throughout_string trivial) hpath hlast happly
  exact ⟨hfound, hremoved ⟨_, rfl, .inr ⟨_, rfl⟩⟩⟩

/-- A tag that is added at an index with leading zeros is not found there. -/
theorem padded_not_found :
    isImmutable "/tags/00" = false ∧ Pointer.parse? "/tags/00" = some ["tags", "00"]
      ∧ apply tagged [.add "/tags/00" (.string "new")]
        = .ok (.object [("slug", .string "card"),
          ("tags", .array [.string "new", .string "a", .string "b"])])
      ∧ ¬∃ found, apply tagged
        [.add "/tags/00" (.string "new"), .test "/tags/00" (.string "new")] = .ok found := by
  refine ⟨rfl, rfl, rfl, ?_⟩
  rintro ⟨found, hfound⟩
  have hrefused : apply tagged
      [.add "/tags/00" (.string "new"), .test "/tags/00" (.string "new")]
        = .error (.pathMissing "/tags/00" "card") := rfl
  rw [hrefused] at hfound
  cases hfound

end Patch

end LinkedContracts
