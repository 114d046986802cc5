import LinkedContracts.Error
import LinkedContracts.Version

/-! # References

    A reference names a contract by its slug and version, `slug@version`,
    where the version may be `latest`.  Types are named the same way, but
    may leave the version out. -/

namespace LinkedContracts

/-- The version part of a reference. -/
inductive VersionChoice where
  | exact (version : Version)
  | latest
deriving DecidableEq

/-- A reference to a contract. -/
structure Reference where
  slug : String
  version : VersionChoice
deriving DecidableEq

/-- Read a version, or say that it is none. -/
def Version.parse (text : String) : Except Error Version :=
  match Version.parse? text with
  | some v => .ok v
  | none => .error (.badVersion text)

namespace Reference

/-- Read a reference.  The version is mandatory. -/
def parse (text : String) : Except Error Reference :=
  match splitFirst '@' text.toList with
  | none => .error (.noVersionReference text)
  | some (slug, version) =>
      if version.isEmpty then .error (.noVersionReference text)
      else if slug.isEmpty then .error .slugUndefined
      else
        let version := String.ofList version
        if version = "latest" then .ok ⟨String.ofList slug, .latest⟩
        else do
          let v ← Version.parse version
          .ok ⟨String.ofList slug, .exact v⟩

/-- A type reference with its version; one without it means the initial
    version. -/
def ofType (type : String) : String :=
  if '@' ∈ type.toList then type else type ++ "@" ++ Version.initial.text

end Reference

end LinkedContracts
