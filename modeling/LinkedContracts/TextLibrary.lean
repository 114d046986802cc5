import LinkedContracts.Text.Split

/-! # Libraries for texts

    What a regular expression matches, and what the slug of a name is, is left
    to a library.  Schemas are compiled and contracts are completed with any
    library; what is proved of them holds for all, unless it asks more of one. -/

namespace LinkedContracts

/-- A library for texts. -/
class TextLibrary where
  /-- The texts in which a regular expression matches somewhere, if it can be
      read. -/
  matcher? (source : String) (ignoreCase : Bool) : Option (String → Bool)
  /-- The slug of a name. -/
  slug (name : String) : String

/-- A regular expression that was read. -/
structure Pattern where
  source : String
  ignoresCase : Bool
  /-- Whether it matches somewhere in a text. -/
  matchesIn (text : String) : Bool

/-- Read a pattern. -/
def Pattern.ofSource? [TextLibrary] (source : String) (ignoreCase : Bool) :
    Option Pattern :=
  (TextLibrary.matcher? source ignoreCase).map (⟨source, ignoreCase, ·⟩)

end LinkedContracts
