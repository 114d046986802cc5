import LinkedContracts.Pattern.Syntax
import LinkedContracts.Text.Slug
import LinkedContracts.TextLibrary

/-! # The library at hand

    A library to run with.  It reads regular expressions and matches them by
    sets of positions, and it spells names in ASCII by tables of Latin letters.
    Other scripts have no spelling in it, and of the properties of characters
    that a pattern may name it knows the general categories and the scripts. -/

namespace LinkedContracts

instance TextLibrary.atHand : TextLibrary where
  matcher? source ignoreCase := (Pattern.compile? source ignoreCase).map Regex.matchesIn
  slug := Slug.ofName

end LinkedContracts
