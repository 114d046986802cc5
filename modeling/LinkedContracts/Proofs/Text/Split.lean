import LinkedContracts.Text.Split

/-! # Texts put together, cut and escaped

    What is put together with a separator between parts that have none is cut
    into those parts.

    Texts are escaped by one replacement after another.  Where the first brings
    in nothing that the second replaces, this escapes each character by itself. -/

namespace LinkedContracts

/-! ## Parts -/

/-- A list is cut at the first separator. -/
theorem splitFirst_append {c : Char} {a : List Char} (h : c ∉ a)
    (b : List Char) : splitFirst c (a ++ c :: b) = some (a, b) := by
  induction a with
  | nil => simp [splitFirst]
  | cons d rest ih =>
      obtain ⟨hd, hrest⟩ : c ≠ d ∧ c ∉ rest := by simpa using h
      simp [splitFirst, Ne.symm hd, ih hrest]

/-- A part before a separator is the first of the parts. -/
theorem splitAll_append {c : Char} {a : List Char} (h : c ∉ a)
    (b : List Char) : splitAll c (a ++ c :: b) = a :: splitAll c b := by
  induction a with
  | nil => simp [splitAll]
  | cons d rest ih =>
      obtain ⟨hd, hrest⟩ : c ≠ d ∧ c ∉ rest := by simpa using h
      simp [splitAll, Ne.symm hd, ih hrest]

/-- A list without the separator is the only part. -/
theorem splitAll_of_not_mem {c : Char} {a : List Char} (h : c ∉ a) :
    splitAll c a = [a] := by
  induction a with
  | nil => rfl
  | cons d rest ih =>
      obtain ⟨hd, hrest⟩ : c ≠ d ∧ c ∉ rest := by simpa using h
      simp [splitAll, Ne.symm hd, ih hrest]

/-! ## Replacements -/

theorem replaceChar_cons (c : Char) (image : List Char) (d : Char) (cs : List Char) :
    replaceChar c image (d :: cs) = (if d = c then image else [d]) ++ replaceChar c image cs :=
  rfl

theorem replaceChar_of_not_mem {c : Char} {cs : List Char} (h : c ∉ cs)
    (image : List Char) : replaceChar c image cs = cs := by
  induction cs with
  | nil => rfl
  | cons d rest ih =>
      obtain ⟨hd, hrest⟩ : c ≠ d ∧ c ∉ rest := by simpa using h
      rw [replaceChar_cons, if_neg (Ne.symm hd), ih hrest]
      rfl

/-- Two replacements that do not get into each other's way. -/
theorem toList_replaceIn_replaceIn {c d : Char} {image : String} (h : d ∉ image.toList)
    (other text : String) :
    (replaceIn d other (replaceIn c image text)).toList
      = text.toList.flatMap fun e =>
          if e = c then image.toList else if e = d then other.toList else [e] := by
  have hchar (e : Char) : replaceChar d other.toList (if e = c then image.toList else [e])
      = if e = c then image.toList else if e = d then other.toList else [e] := by
    by_cases hec : e = c
    · rw [if_pos hec, if_pos hec, replaceChar_of_not_mem h]
    · rw [if_neg hec, if_neg hec, replaceChar, List.flatMap_singleton]
  simp only [replaceIn, String.toList_ofList]
  rw [replaceChar, replaceChar, List.flatMap_assoc]
  exact congrArg (List.flatMap · text.toList) (funext hchar)

end LinkedContracts
