/-! # Slugs

    A slug is made of lower-case ASCII letters and digits with single
    hyphens between them.  Latin letters with accents are written by their
    base letters; whatever has no letters or digits of its own separates
    words. -/

namespace LinkedContracts

namespace Slug

/-- Consecutive Latin letters from a code point on, each with the base
    letter that stands for it. -/
def baseLetters : List (Nat × String) :=
  [(0xAA, "a"),
   (0xB2, "23"),
   (0xB5, "uP"),
   (0xB9, "1o"),
   (0xC0, "AAAAAA"),
   (0xC7, "CEEEEIIIIDNOOOOOxOUUUUY"),
   (0xE0, "aaaaaa"),
   (0xE7, "ceeeeiiiidnooooo"),
   (0xF8, "ouuuuy"),
   (0xFF, "yAaAaAaCcCcCcCcDdDdEeEeEeEeEeGgGgGgGgHhHhIiIiIiIiIi"),
   (0x134, "JjKkkLlLlLlLlLlNnNnNn"),
   (0x14C, "OoOoOo"),
   (0x154, "RrRrRrSsSsSsSsTtTtTtUuUuUuUuUuUuWwYyYZzZzZzs"),
   (0x1CD, "AaIiOoUuUuUuUuUu"),
   (0x1DE, "AaAa"),
   (0x1E6, "GgKkOoOo"),
   (0x1F4, "Gg"),
   (0x1F8, "NnAa"),
   (0x1FE, "OoAaAaEeEeIiIiOoOoRrRrUuUuSsTt"),
   (0x21E, "Hh"),
   (0x226, "AaEeOoOoOoOoYy"),
   (0x1E00, "AaBbBbBbCcDdDdDdDdDdEeEeEeEeEeFfGgHhHhHhHhHhIiIiKkKkKkLl"),
   (0x1E38, "LlLlLlMmMmMmNnNnNnNnOoOoOoOoPpPpRrRrRrRrSsSsSsSsSsTtTtTt"),
   (0x1E70, "TtUuUuUuUuUuVvVvWwWwWwWwWwXxXxYyZzZzZzhtwyas"),
   (0x1EA0, "AaAaAaAaAaAaAaAaAaAaAaAaEeEeEeEeEeEeEeEeIiIiOoOoOoOoOoOo"),
   (0x1ED8, "OoOoOoOoOoOoUuUuUuUuUuUuUuYyYyYyYy")]

/-- Characters written with several letters, or with none. -/
def spelled : List (Nat × String) :=
  [(0xA2, "C/"), (0xA3, "PS"), (0xA5, "Y="), (0xA7, "SS"), (0xA9, "(c)"),
   (0xAD, ""), (0xAE, "(r)"), (0xB0, "deg"), (0xBC, "1/4"), (0xBD, "1/2"),
   (0xBE, "3/4"), (0xC6, "AE"), (0xDE, "Th"), (0xDF, "ss"), (0xE6, "ae"),
   (0xFE, "th"), (0x132, "IJ"), (0x133, "ij"), (0x149, "'n"),
   (0x14A, "NG"), (0x14B, "ng"), (0x152, "OE"), (0x153, "oe"),
   (0x1E2, "AE"), (0x1E3, "ae"), (0x1EE, "Zh"), (0x1EF, "zh"),
   (0x1FC, "AE"), (0x1FD, "ae"), (0x1E9E, "Ss")]

/-- The ASCII spelling of a character that is not ASCII.  Combining accents
    vanish; a character without a spelling separates words. -/
def spelling (c : Nat) : List Char :=
  if 0x300 ≤ c ∧ c < 0x370 then []
  else match spelled.lookup c with
    | some text => text.toList
    | none =>
        (baseLetters.findSome? fun (first, letters) =>
          if first ≤ c then letters.toList[c - first]?.map fun l => [l]
          else none).getD ['-']

/-- The ASCII spelling of a character. -/
def ascii (c : Char) : List Char :=
  if c.toNat < 128 then [c] else spelling c.toNat

/-- Join words with single hyphens; `pending` is set when a hyphen is due
    before the next letter. -/
def joinWords (pending : Bool) : List Char → List Char
  | [] => []
  | c :: rest =>
      if c.isAlphanum then
        if pending then '-' :: c.toLower :: joinWords false rest
        else c.toLower :: joinWords false rest
      else joinWords true rest

/-- The slug of a name. -/
def ofName (name : String) : String :=
  let letters := name.toList.flatMap ascii
  String.ofList (joinWords false (letters.dropWhile fun c => !c.isAlphanum))

end Slug

end LinkedContracts
