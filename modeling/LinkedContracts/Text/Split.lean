/-! # Splitting and replacing

    A list of characters cut at separators, put together again, and with
    single characters replaced. -/

namespace LinkedContracts

/-- The parts of a list before and after the first `c`. -/
def splitFirst (c : Char) : List Char → Option (List Char × List Char)
  | [] => none
  | d :: rest =>
      if d = c then some ([], rest)
      else (splitFirst c rest).map fun (a, b) => (d :: a, b)

/-- The parts of a list between the occurrences of `c`. -/
def splitAll (c : Char) : List Char → List (List Char)
  | [] => [[]]
  | d :: rest =>
      if d = c then [] :: splitAll c rest
      else match splitAll c rest with
        | [] => [[d]]
        | part :: parts => (d :: part) :: parts

/-- Write `image` in place of every `c`. -/
def replaceChar (c : Char) (image : List Char) (cs : List Char) : List Char :=
  cs.flatMap fun d => if d = c then image else [d]

/-- A text with `image` in place of every `c`. -/
def replaceIn (c : Char) (image : String) (text : String) : String :=
  String.ofList (replaceChar c image.toList text.toList)

/-- Texts with a separator between them. -/
def joinWith (separator : String) : List String → String
  | [] => ""
  | [s] => s
  | s :: rest => s ++ separator ++ joinWith separator rest

/-- What a cut at the first `c` gives, put together, is the list. -/
theorem eq_of_splitFirst {c : Char} {cs a b : List Char}
    (h : splitFirst c cs = some (a, b)) : cs = a ++ c :: b ∧ c ∉ a := by
  induction cs generalizing a with
  | nil => simp [splitFirst] at h
  | cons d rest ih =>
      unfold splitFirst at h
      split at h
      · next hd =>
          obtain ⟨rfl, rfl⟩ := Prod.mk.inj (Option.some.inj h)
          simp [hd]
      · next hd =>
          obtain ⟨p, hp, hpq⟩ := Option.map_eq_some_iff.mp h
          obtain ⟨x, y⟩ := p
          obtain ⟨rfl, rfl⟩ := Prod.mk.inj hpq
          obtain ⟨h1, h2⟩ := ih hp
          refine ⟨by rw [h1]; rfl, ?_⟩
          simp only [List.mem_cons, not_or]
          exact ⟨fun he => hd he.symm, h2⟩

/-- A list without `c` is not cut. -/
theorem splitFirst_eq_none_iff {c : Char} {cs : List Char} :
    splitFirst c cs = none ↔ c ∉ cs := by
  induction cs with
  | nil => simp [splitFirst]
  | cons d rest ih =>
      unfold splitFirst
      split
      · next hd => simp [hd]
      · next hd =>
          rw [Option.map_eq_none_iff, ih, List.mem_cons, not_or]
          exact ⟨fun h => ⟨fun he => hd he.symm, h⟩, fun h => h.2⟩

end LinkedContracts
