import LinkedContracts.Proofs.Dict
import LinkedContracts.Proofs.Json.Numbers
import LinkedContracts.Proofs.Json.Parts

/-! # Document text read back

    The text of a document is read to its end, and what is read is the
    document told again: strings, booleans and null are as they were, numbers
    are what their texts say, and fields stand in ascending order.  Only a
    document that nests too deep, or a number past the largest value, is not
    read. -/

namespace LinkedContracts

namespace Json

/-! ## Strings -/

/-- Four hexadecimal digits spell a control character. -/
theorem codeUnit?_control {n : Nat} (h : n < 32) :
    codeUnit? '0' '0' (hexDigit (n / 16)) (hexDigit (n % 16)) = some n := by
  have all : ∀ n : Fin 32, codeUnit? '0' '0' (hexDigit (n / 16))
      (hexDigit (n % 16)) = some n.val := by decide
  exact all ⟨n, h⟩

/-- A character that needs no escape is read as it is. -/
theorem readString_plain {c : Char} (hquote : c ≠ '"') (hslash : c ≠ '\\')
    (hcontrol : ¬c.val < 32) (done rest : List Char) :
    readString none done (c :: rest) = readString none (c :: done) rest := by
  rw [readString.eq_def]
  split
  · next heq => exact absurd (List.cons.inj heq).1 hslash
  · next heq => exact absurd (List.cons.inj heq).1 hslash
  · next heq => exact absurd (List.cons.inj heq).1 hquote
  · next heq =>
      obtain ⟨rfl, rfl⟩ := List.cons.inj heq
      simp [hslash, hcontrol]
  · next heq => cases heq

/-- An escaped character is read back. -/
theorem readString_escape (c : Char) (done rest : List Char) :
    readString none done (escape c ++ rest)
      = readString none (c :: done) rest := by
  unfold escape
  split
  · next h => subst h; rfl
  split
  · next h => subst h; rfl
  split
  · next h => subst h; rfl
  split
  · next h => subst h; rfl
  split
  · next h => subst h; rfl
  split
  · next h =>
      obtain rfl : c = Char.ofNat 8 := Char.ext h
      rfl
  split
  · next h =>
      obtain rfl : c = Char.ofNat 12 := Char.ext h
      rfl
  split
  · next h =>
      have hlt : c.toNat < 32 := UInt32.lt_iff_toNat_lt.mp h
      have hu := codeUnit?_control hlt
      show readString none done ('\\' :: 'u' :: '0' :: '0'
        :: hexDigit (c.toNat / 16) :: hexDigit (c.toNat % 16) :: rest) = _
      have h1 : ¬(0xD800 ≤ c.toNat ∧ c.toNat < 0xDC00) := by omega
      have h2 : ¬(0xDC00 ≤ c.toNat ∧ c.toNat < 0xE000) := by omega
      rw [readString.eq_def]
      simp only [hu, if_neg h1, if_neg h2, Char.ofNat_toNat]
  · next hquote hslash _ _ _ _ _ hcontrol =>
      exact readString_plain hquote hslash hcontrol done rest

/-- A string is read back. -/
theorem readString_quoted (cs done rest : List Char) :
    readString none done (cs.flatMap escape ++ '"' :: rest)
      = some (String.ofList (done.reverse ++ cs), rest) := by
  induction cs generalizing done with
  | nil => simp [readString]
  | cons c cs ih =>
      rw [List.flatMap_cons, List.append_assoc, readString_escape, ih]
      simp

/-! ## Documents -/

mutual

/-- What is read back from the text of a document, if it is read. -/
def retold : Nat → Json → Option Json
  | _, .null => some .null
  | _, .bool b => some (.bool b)
  | _, .number n => n.retold.map .number
  | _, .string s => some (.string s)
  | 0, .array _ => none
  | depth + 1, .array items => (retoldItems depth items).map .array
  | 0, .object _ => none
  | depth + 1, .object fields =>
      (retoldFields depth fields).map fun fs => .object (Dict.ofList fs)

/-- What is read back from the items of an array. -/
def retoldItems : Nat → List Json → Option (List Json)
  | _, [] => some []
  | depth, x :: xs =>
      (retold depth x).bind fun y => (retoldItems depth xs).map (y :: ·)

/-- What is read back from the fields of an object. -/
def retoldFields : Nat → List (String × Json) → Option (List (String × Json))
  | _, [] => some []
  | depth, (key, x) :: rest =>
      (retold depth x).bind fun y =>
        (retoldFields depth rest).map ((key, y) :: ·)

end

theorem skipBlanks_cons (c : Char) (h : isBlank c = false) (rest : List Char) :
    skipBlanks (c :: rest) = c :: rest :=
  List.dropWhile_cons_of_neg (by simp [h])

/-- Items and the closing bracket are read, if each item is read to its
    end. -/
theorem readItems_chars {depth : Nat} {x : Json} {xs : List Json}
    (h : ∀ y ∈ x :: xs, ReadsAll (readValue depth) (chars y) (retold depth y))
    {fuel : Nat} (hfuel : xs.length < fuel) (rest : List Char) :
    readItems (readValue depth) fuel (chars x ++ (moreItems xs ++ rest))
      = (retoldItems depth (x :: xs)).map (·, rest) := by
  induction xs generalizing x fuel with
  | nil =>
      obtain ⟨fuel, rfl⟩ : ∃ n, fuel = n + 1 := ⟨fuel - 1, by omega⟩
      have hx := h x (by simp) (']' :: rest) (ends_bracket rest)
      simp only [readItems, moreItems, List.cons_append, List.nil_append, hx,
        retoldItems]
      cases retold depth x <;> simp [skipBlanks_cons ']' rfl]
  | cons y ys ih =>
      obtain ⟨fuel, rfl⟩ : ∃ n, fuel = n + 1 := ⟨fuel - 1, by omega⟩
      have hx := h x (by simp) (',' :: (chars y ++ (moreItems ys ++ rest)))
        (ends_comma _)
      have hys : readItems (readValue depth) fuel
            (chars y ++ (moreItems ys ++ rest))
          = (retoldItems depth (y :: ys)).map (·, rest) :=
        ih (fun z hz => h z (List.mem_cons_of_mem _ hz)) (by simpa using hfuel)
      rw [retoldItems]
      simp only [readItems, moreItems, List.cons_append, List.append_assoc, hx]
      cases retold depth x with
      | none => rfl
      | some x' =>
          simp only [Option.map_some, Option.bind_eq_bind, Option.bind_some,
            skipBlanks_cons ',' rfl, hys]
          cases retoldItems depth (y :: ys) <;> rfl

/-- The key of a field is read, and then its value. -/
theorem readFields_quoted (item : List Char → Option (Json × List Char))
    (fuel : Nat) (key : String) (tail : List Char) :
    readFields item (fuel + 1) (quoted key ++ ':' :: tail)
      = (item tail).bind fun (x, rest) =>
        match skipBlanks rest with
        | ',' :: r =>
            (readFields item fuel r).bind fun (xs, r) => some ((key, x) :: xs, r)
        | '\x7d' :: r => some ([(key, x)], r)
        | _ => none := by
  have hkey : readString none [] (key.toList.flatMap escape ++ '"' :: ':' :: tail)
      = some (key, ':' :: tail) := by
    rw [readString_quoted]
    simp
  simp only [readFields, quoted, List.cons_append, List.append_assoc,
    List.nil_append, skipBlanks_cons '"' rfl, skipBlanks_cons ':' rfl, hkey, Option.bind_eq_bind,
    Option.bind_some]
  rfl

/-- Fields and the closing brace are read, if each value is read to its
    end. -/
theorem readFields_chars {depth : Nat} {key : String} {x : Json}
    {xs : List (String × Json)}
    (h : ∀ p ∈ (key, x) :: xs,
      ReadsAll (readValue depth) (chars p.2) (retold depth p.2))
    {fuel : Nat} (hfuel : xs.length < fuel) (rest : List Char) :
    readFields (readValue depth) fuel
        (quoted key ++ ':' :: (chars x ++ (moreFields xs ++ rest)))
      = (retoldFields depth ((key, x) :: xs)).map (·, rest) := by
  induction xs generalizing key x fuel with
  | nil =>
      obtain ⟨fuel, rfl⟩ : ∃ n, fuel = n + 1 := ⟨fuel - 1, by omega⟩
      have hx : readValue depth (chars x ++ '\x7d' :: rest)
          = (retold depth x).map (·, '\x7d' :: rest) :=
        h (key, x) (by simp) _ (ends_brace rest)
      rw [readFields_quoted, retoldFields]
      simp only [moreFields, List.cons_append, List.nil_append, hx]
      cases retold depth x <;> simp [skipBlanks_cons '\x7d' rfl, retoldFields]
  | cons p ys ih =>
      obtain ⟨l, y⟩ := p
      obtain ⟨fuel, rfl⟩ : ∃ n, fuel = n + 1 := ⟨fuel - 1, by omega⟩
      have hx := h (key, x) (by simp)
        (',' :: (quoted l ++ ':' :: (chars y ++ (moreFields ys ++ rest))))
        (ends_comma _)
      have hys : readFields (readValue depth) fuel
            (quoted l ++ ':' :: (chars y ++ (moreFields ys ++ rest)))
          = (retoldFields depth ((l, y) :: ys)).map (·, rest) :=
        ih (fun p hp => h p (List.mem_cons_of_mem _ hp)) (by simpa using hfuel)
      rw [readFields_quoted, retoldFields]
      simp only [moreFields, List.cons_append, List.append_assoc, hx]
      cases retold depth x with
      | none => rfl
      | some x' =>
          simp only [Option.map_some, Option.bind_some, skipBlanks_cons ',' rfl, hys]
          cases retoldFields depth ((l, y) :: ys) <;> rfl

theorem isBlank_of_number {c : Char} (hc : c.isDigit = true ∨ c = '-') :
    isBlank c = false := by
  rcases hc with hc | rfl
  · cases hb : isBlank c with
    | false => rfl
    | true =>
        simp only [isBlank, Bool.or_eq_true, beq_iff_eq, or_assoc] at hb
        rcases hb with rfl | rfl | rfl | rfl <;> cases hc
  · rfl

/-- A text that begins with a digit or a minus is read as a number. -/
theorem readValue_number {c : Char} (hc : c.isDigit = true ∨ c = '-')
    (depth : Nat) (rest : List Char) :
    readValue depth (c :: rest)
      = (readNumber (c :: rest)).map fun (n, r) => (.number n, r) := by
  rw [readValue.eq_def]
  simp only [skipBlanks_cons c (isBlank_of_number hc)]
  split
  all_goals first
    | rfl
    | next heq =>
        obtain ⟨rfl, -⟩ := List.cons.inj heq
        rcases hc with hc | hc <;> cases hc

/-- Numbers begin with a digit or a minus. -/
theorem numberText_head {t : List Char} (ht : NumberText t) :
    ∃ c cs, t = c :: cs ∧ (c.isDigit = true ∨ c = '-') := by
  cases ht with
  | positive ht =>
      obtain ⟨hds, ht⟩ := ht
      rename_i ds t
      obtain ⟨c, cs, rfl⟩ := List.exists_cons_of_ne_nil hds.1
      exact ⟨c, cs ++ t, rfl, .inl (hds.2 c List.mem_cons_self)⟩
  | negative ht => exact ⟨'-', _, rfl, .inr rfl⟩

/-- The text of a document begins with neither a blank nor a closing
    bracket. -/
theorem chars_head (j : Json) :
    ∃ c cs, chars j = c :: cs ∧ isBlank c = false ∧ c ≠ ']' := by
  cases j with
  | null => exact ⟨_, _, rfl, rfl, by decide⟩
  | bool b => cases b <;> exact ⟨_, _, rfl, rfl, by decide⟩
  | number n =>
      obtain ⟨c, cs, hcs, hc⟩ := numberText_head (numberText_form n)
      refine ⟨c, cs, hcs, isBlank_of_number hc, ?_⟩
      rcases hc with hc | rfl
      · rintro rfl
        cases hc
      · decide
  | string s => exact ⟨_, _, rfl, rfl, by decide⟩
  | array items => cases items <;> exact ⟨_, _, rfl, rfl, by decide⟩
  | object fields => cases fields <;> exact ⟨_, _, rfl, rfl, by decide⟩

/-- An array with items is read item by item. -/
theorem readValue_array {c : Char} (blank : isBlank c = false) (hc : c ≠ ']')
    (depth : Nat) (rest : List Char) :
    readValue (depth + 1) ('[' :: c :: rest)
      = (readItems (readValue depth) (rest.length + 1) (c :: rest)).map
          fun (xs, r) => (.array xs, r) := by
  rw [readValue.eq_def]
  simp only [skipBlanks_cons '[' rfl, skipBlanks_cons c blank]
  split
  · next heq => exact absurd (List.cons.inj heq).1 hc
  · rfl

/-- An object with fields is read field by field. -/
theorem readValue_object (depth : Nat) (rest : List Char) :
    readValue (depth + 1) ('\x7b' :: '"' :: rest)
      = (readFields (readValue depth) (rest.length + 1) ('"' :: rest)).map
          fun (xs, r) => (.object (Dict.ofList xs), r) := by
  rw [readValue.eq_def]
  simp only [skipBlanks_cons '\x7b' rfl, skipBlanks_cons '"' rfl]
  rfl

theorem length_lt_moreItems (xs : List Json) : xs.length < (moreItems xs).length := by
  induction xs with
  | nil => decide
  | cons x xs ih => simp only [moreItems, List.length_cons, List.length_append]; omega

theorem length_lt_moreFields (xs : List (String × Json)) :
    xs.length < (moreFields xs).length := by
  induction xs with
  | nil => decide
  | cons p xs ih =>
      obtain ⟨key, x⟩ := p
      simp only [moreFields, List.length_cons, List.length_append]
      omega

/-- The text of a document is read to its end, and the document told again
    is read. -/
theorem readValue_chars (j : Json) (depth : Nat) :
    ReadsAll (readValue depth) (chars j) (retold depth j) := by
  induction j using induct generalizing depth with
  | null =>
      intro rest h
      cases depth <;> rfl
  | bool b =>
      intro rest h
      cases b <;> cases depth <;> rfl
  | number n =>
      intro rest h
      obtain ⟨c, cs, hcs, hc⟩ := numberText_head (numberText_form n)
      have hn := readNumber_numberText n rest h
      rw [hcs] at hn
      rw [chars, hcs, List.cons_append, readValue_number hc, ← List.cons_append, hn,
        retold]
      cases n.retold <;> rfl
  | string s =>
      intro rest h
      have hs := readString_quoted s.toList [] rest
      rw [chars, quoted, List.cons_append, readValue.eq_def]
      simp only [skipBlanks_cons '"' rfl, List.append_assoc, List.cons_append,
        List.nil_append, hs]
      simp [retold]
  | array items ih =>
      intro rest h
      cases depth with
      | zero => cases items <;> rfl
      | succ depth =>
          cases items with
          | nil => rfl
          | cons x xs =>
              obtain ⟨c, cs, hcs, blank, hc⟩ := chars_head x
              have hlength := length_lt_moreItems xs
              have hitems := readItems_chars (fun y hy => ih y hy depth)
                (show xs.length < (cs ++ (moreItems xs ++ rest)).length + 1 by
                  simp only [List.length_append]; omega) rest
              rw [hcs, List.cons_append] at hitems
              rw [chars, hcs]
              simp only [List.cons_append, List.append_assoc]
              rw [readValue_array blank hc, hitems, retold]
              cases retoldItems depth (x :: xs) <;> rfl
  | object fields ih =>
      intro rest h
      cases depth with
      | zero =>
          match fields with
          | [] => rfl
          | (_, _) :: _ => rfl
      | succ depth =>
          match fields with
          | [] => rfl
          | (key, x) :: xs =>
              have hlength := length_lt_moreFields xs
              have hfields := readFields_chars (fun p hp => ih p hp depth)
                (show xs.length < (quoted key
                    ++ ':' :: (chars x ++ (moreFields xs ++ rest))).length by
                  simp only [List.length_append, List.length_cons]; omega) rest
              rw [quoted, List.cons_append] at hfields
              rw [chars, quoted]
              simp only [List.cons_append, List.append_assoc] at hfields ⊢
              rw [readValue_object]
              simp only [List.length_cons] at hfields
              rw [hfields, retold]
              cases retoldFields depth ((key, x) :: xs) <;> rfl

/-- Reading back the text of a document gives the document told again. -/
theorem parse?_render (j : Json) : parse? j.render = retold maxDepth j := by
  have h := readValue_chars j maxDepth [] ends_nil
  rw [List.append_nil] at h
  rw [parse?, render, String.toList_ofList, h]
  cases retold maxDepth j <;> rfl

/-- Texts are told again as they are. -/
theorem retoldItems_strings (depth : Nat) (items : List String) :
    retoldItems depth (items.map .string) = some (items.map .string) := by
  induction items with
  | nil => rfl
  | cons item items ih => simp [retoldItems, retold, ih]

/-! ## Fields told again -/

/-- The fields told again are those of the object, each told again. -/
theorem find?_retoldFields {depth : Nat} {fields fs : List (String × Json)}
    (h : retoldFields depth fields = some fs) (key : String) :
    Dict.find? fs key = (Dict.find? fields key).bind (retold depth) := by
  induction fields generalizing fs with
  | nil =>
      obtain rfl := Option.some.inj h
      rfl
  | cons p rest ih =>
      obtain ⟨k, x⟩ := p
      obtain ⟨y, hy, h⟩ := Option.bind_eq_some_iff.mp h
      obtain ⟨ys, hys, rfl⟩ := Option.map_eq_some_iff.mp h
      rw [Dict.find?_cons, Dict.find?_cons]
      split
      · exact hy.symm
      · exact ih hys

theorem keys_retoldFields {depth : Nat} {fields fs : List (String × Json)}
    (h : retoldFields depth fields = some fs) :
    Dict.keys fs = Dict.keys fields := by
  induction fields generalizing fs with
  | nil =>
      obtain rfl := Option.some.inj h
      rfl
  | cons p rest ih =>
      obtain ⟨k, x⟩ := p
      obtain ⟨y, hy, h⟩ := Option.bind_eq_some_iff.mp h
      obtain ⟨ys, hys, rfl⟩ := Option.map_eq_some_iff.mp h
      simpa [Dict.keys] using ih hys

theorem retoldFields_eq {depth : Nat} {fields : List (String × Json)}
    (h : ∀ p ∈ fields, retold depth p.2 = some p.2) :
    retoldFields depth fields = some fields := by
  induction fields with
  | nil => rfl
  | cons p rest ih =>
      obtain ⟨hp, hrest⟩ := List.forall_mem_cons.mp h
      simp [retoldFields, hp, ih hrest]

/-- An object with its fields in order is told again as it is, if each field
    is. -/
theorem retold_object_eq {depth : Nat} {fields : Dict Json}
    (hfields : Dict.Sorted fields) (h : ∀ p ∈ fields, retold depth p.2 = some p.2) :
    retold (depth + 1) (.object fields) = some (.object fields) := by
  rw [retold, retoldFields_eq h, Option.map_some, hfields.ofList_eq]

/-- An object with its fields in order is read back field by field. -/
theorem parse?_object {fields : Dict Json} (hfields : Dict.Sorted fields)
    {j : Json} (h : parse? (Json.object fields).render = some j) :
    ∃ fs, j = .object fs ∧ ∀ key,
      Dict.find? fs key = (Dict.find? fields key).bind (retold (maxDepth - 1)) := by
  rw [parse?_render] at h
  obtain ⟨fs, hfs, rfl⟩ := Option.map_eq_some_iff.mp h
  have sorted : Dict.Sorted fs := by
    rw [Dict.Sorted, keys_retoldFields hfs]
    exact hfields
  refine ⟨Dict.ofList fs, rfl, fun key => ?_⟩
  rw [sorted.ofList_eq]
  exact find?_retoldFields hfs key

end Json

end LinkedContracts
