import LinkedContracts.Text.Words

/-! # The words of a search expression

    A search expression lists the words of a term with `&` between them.
    Neither `&` nor a space is part of a word, since every table of
    alphanumeric characters starts at `0` or later, so the words of the
    expression are those of the term. -/

namespace LinkedContracts

/-! ## Characters before a table -/

namespace Ranges

/-- Whether the first of the ranges starts after a code point. -/
def startsAfter (n : Nat) : Ranges → Bool
  | [] => false
  | (first, _) :: _ => n < first

theorem mem_append_of_startsAfter {n c : Nat} {rs : Ranges}
    (h : startsAfter n rs = true) (hc : c ≤ n) (more : Ranges) :
    mem (rs ++ more) c = false := by
  cases rs with
  | nil => cases h
  | cons r rest =>
      have : n < r.1 := of_decide_eq_true h
      exact if_pos (by omega)

/-- A table of several lines lists nothing before its first range.  Of the
    text only the first range is read. -/
theorem mem_ofLines {n c : Nat} {cs : List Char} {lines : List String}
    (h : startsAfter n (ofChars none 0 cs) = true) (hc : c ≤ n) :
    mem (ofLines (String.ofList cs :: lines)) c = false := by
  rw [ofLines, List.flatMap_cons, ofText, String.toList_ofList]
  exact mem_append_of_startsAfter h hc _

/-- A table lists nothing before its first range. -/
theorem mem_ofText {n c : Nat} {cs : List Char}
    (h : startsAfter n (ofChars none 0 cs) = true) (hc : c ≤ n) :
    mem (ofText (String.ofList cs)) c = false := by
  rw [ofText, String.toList_ofList, ← List.append_nil (ofChars none 0 cs)]
  exact mem_append_of_startsAfter h hc _

end Ranges

namespace Text

/-- No character before the digits is alphabetic or a number. -/
theorem isAlphanumeric_of_lt {c : Char} (h : c.toNat < 48) :
    isAlphanumeric c = false := by
  -- each table starts at the digits or later
  have hc : c.toNat ≤ 47 := by omega
  have upper : Category.upperRanges.mem c.toNat = false :=
    Ranges.mem_ofLines (n := 47) (by decide) hc
  have lower : Category.lowerRanges.mem c.toNat = false :=
    Ranges.mem_ofLines (n := 47) (by decide) hc
  have title : Category.titleRanges.mem c.toNat = false :=
    Ranges.mem_ofText (n := 47) (by decide) hc
  have modifier : Category.modifierLetterRanges.mem c.toNat = false :=
    Ranges.mem_ofLines (n := 47) (by decide) hc
  have letter : Category.otherLetterRanges.mem c.toNat = false :=
    Ranges.mem_ofLines (n := 47) (by decide) hc
  have letterNumber : Category.letterNumberRanges.mem c.toNat = false :=
    Ranges.mem_ofLines (n := 47) (by decide) hc
  have alphabetic : otherAlphabetic.mem c.toNat = false :=
    Ranges.mem_ofLines (n := 47) (by decide) hc
  have digit : Category.decimalDigitRanges.mem c.toNat = false :=
    Ranges.mem_ofLines (n := 47) (by decide) hc
  have number : Category.otherNumberRanges.mem c.toNat = false :=
    Ranges.mem_ofLines (n := 47) (by decide) hc
  simp only [isAlphanumeric, isAlphabetic, isNumeric, inCategories, letters,
    numbers, List.any_cons, List.any_nil, Category.ranges, upper, lower, title,
    modifier, letter, letterNumber, alphabetic, digit, number, Bool.or_false]

/-! ## Words -/

/-- Whether characters can be a word. -/
def IsWord (w : List Char) : Prop :=
  w ≠ [] ∧ ∀ c ∈ w, isAlphanumeric c = true

/-- The letters under way, once a word ends, are a word. -/
theorem isWord_reverse {current : List Char}
    (h : ∀ c ∈ current, isAlphanumeric c = true)
    (hne : ¬ current.isEmpty = true) : IsWord current.reverse :=
  ⟨by simpa using hne, fun c hc => h c (List.mem_reverse.mp hc)⟩

/-- The pieces of a text between other characters are words. -/
theorem isWord_of_mem_wordsFrom {current cs : List Char}
    (h : ∀ c ∈ current, isAlphanumeric c = true) :
    ∀ w ∈ wordsFrom current cs, IsWord w := by
  induction cs generalizing current with
  | nil =>
      intro w hw
      simp only [wordsFrom] at hw
      split at hw
      · cases hw
      · next hne =>
          obtain rfl := List.mem_singleton.mp hw
          exact isWord_reverse h hne
  | cons c rest ih =>
      intro w hw
      have fresh : ∀ w ∈ wordsFrom [] rest, IsWord w := ih nofun
      simp only [wordsFrom] at hw
      split at hw
      · next hc => exact ih (List.forall_mem_cons.mpr ⟨hc, h⟩) w hw
      · split at hw
        · exact fresh w hw
        · next hne =>
            rcases List.mem_cons.mp hw with rfl | hw
            · exact isWord_reverse h hne
            · exact fresh w hw

theorem isWord_of_mem_words {text : String} :
    ∀ w ∈ words text, IsWord w :=
  isWord_of_mem_wordsFrom nofun

/-- A word at the start is read letter by letter. -/
theorem wordsFrom_append {w : List Char}
    (hw : ∀ c ∈ w, isAlphanumeric c = true) (current rest : List Char) :
    wordsFrom current (w ++ rest) = wordsFrom (w.reverse ++ current) rest := by
  induction w generalizing current with
  | nil => rfl
  | cons c w ih =>
      obtain ⟨hc, hw⟩ := List.forall_mem_cons.mp hw
      rw [List.cons_append, wordsFrom, if_pos hc, ih hw]
      simp

/-- A word and what separates it from the next are read as that word. -/
theorem wordsFrom_separated {w : List Char} (hw : IsWord w)
    (rest : List Char) :
    wordsFrom [] (w ++ (" & ".toList ++ rest)) = w :: wordsFrom [] rest := by
  have blank : isAlphanumeric ' ' = false := isAlphanumeric_of_lt (by decide)
  have ampersand : isAlphanumeric '&' = false :=
    isAlphanumeric_of_lt (by decide)
  have separator : " & ".toList = [' ', '&', ' '] := by decide
  rw [wordsFrom_append hw.2, separator]
  simp [wordsFrom, blank, ampersand, hw.1]

/-- The words of words with separators between them. -/
theorem words_joinWith {ws : List (List Char)} (h : ∀ w ∈ ws, IsWord w) :
    words (joinWith " & " (ws.map String.ofList)) = ws := by
  induction ws with
  | nil => rfl
  | cons w rest ih =>
      obtain ⟨hw, hrest⟩ := List.forall_mem_cons.mp h
      cases rest with
      | nil =>
          show wordsFrom [] (String.ofList w).toList = [w]
          rw [String.toList_ofList, ← List.append_nil w,
            wordsFrom_append hw.2]
          simp [wordsFrom, hw.1]
      | cons next rest =>
          show wordsFrom [] (String.ofList w ++ " & "
            ++ joinWith " & " ((next :: rest).map String.ofList)).toList = _
          rw [String.toList_append, String.toList_append, String.toList_ofList,
            List.append_assoc, wordsFrom_separated hw]
          exact congrArg (w :: ·) (ih hrest)

/-- A search expression has the words of its term. -/
theorem words_searchExpression (term : String) :
    words (searchExpression term) = words term :=
  words_joinWith isWord_of_mem_words

/-- A text matches a search expression as it matches the term. -/
theorem matchesTerm_searchExpression (text term : String) :
    matchesTerm text (searchExpression term) = matchesTerm text term := by
  simp only [matchesTerm, words_searchExpression]

end Text

end LinkedContracts
