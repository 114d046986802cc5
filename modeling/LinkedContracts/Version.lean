import LinkedContracts.Numeric.Word
import LinkedContracts.Text.Split

/-! # Versions

    A version is three numbers, a prerelease and a build, written
    `1.2.3-prerelease+build`.  Missing numbers are zero.

    Versions are ordered by their numbers; a version without a prerelease
    comes after every prerelease of it; then prerelease and build are
    compared as text. -/

namespace LinkedContracts

/-- The version of a contract. -/
structure Version where
  major : Nat
  minor : Nat
  patch : Nat
  prerelease : String
  build : String
deriving DecidableEq, Inhabited

namespace Version

/-- Up to three numbers, missing ones zero. -/
def numbers? : List (List Char) → Option (Nat × Nat × Nat)
  | [a] => (word? a).map fun a => (a, 0, 0)
  | [a, b] => do return (← word? a, ← word? b, 0)
  | [a, b, c] => do return (← word? a, ← word? b, ← word? c)
  | _ => none

/-- Read a version.  The first plus starts the build, and the first hyphen
    before it the prerelease. -/
def parse? (text : String) : Option Version :=
  let cs := text.toList
  let (rest, build) := (splitFirst '+' cs).getD (cs, [])
  let (core, prerelease) := (splitFirst '-' rest).getD (rest, [])
  (numbers? (splitAll '.' core)).map fun (major, minor, patch) =>
    ⟨major, minor, patch, String.ofList prerelease, String.ofList build⟩

/-- The canonical text of a version. -/
def text (v : Version) : String :=
  let core := s!"{v.major}.{v.minor}.{v.patch}"
  let pre := if v.prerelease.isEmpty then "" else "-" ++ v.prerelease
  let build := if v.build.isEmpty then "" else "+" ++ v.build
  core ++ pre ++ build

/-- The version of a contract that names none. -/
def initial : Version := ⟨1, 0, 0, "", ""⟩

/-- Prereleases in their order; none at all comes last. -/
def cmpPrerelease (a b : String) : Ordering :=
  match a.isEmpty, b.isEmpty with
  | true, false => .gt
  | false, true => .lt
  | _, _ => compare a b

/-- The order of versions. -/
def cmp (a b : Version) : Ordering :=
  (compare a.major b.major).then <|
  (compare a.minor b.minor).then <|
  (compare a.patch b.patch).then <|
  (cmpPrerelease a.prerelease b.prerelease).then <|
  compare a.build b.build

end Version

end LinkedContracts
