import LinkedContracts.Json
import LinkedContracts.Numeric.Word
import LinkedContracts.Text.Split

/-! # Pointers

    A pointer is a path into a document, written as its tokens with a slash
    before each.  Inside a token `~1` stands for a slash and `~0` for a
    tilde.  A token names a field of an object or counts an item of an
    array.

    `lookup?` finds what a path leads to and `replace?` puts something else
    there; both are `none` where the path leads nowhere. -/

namespace LinkedContracts

namespace Pointer

/-- Read the escaped slashes of a token. -/
def readSlashes : List Char → List Char
  | '~' :: '1' :: rest => '/' :: readSlashes rest
  | c :: rest => c :: readSlashes rest
  | [] => []

/-- Read the escaped tildes of a token. -/
def readTildes : List Char → List Char
  | '~' :: '0' :: rest => '~' :: readTildes rest
  | c :: rest => c :: readTildes rest
  | [] => []

/-- Read a token. -/
def readToken (cs : List Char) : String :=
  String.ofList (readTildes (readSlashes cs))

/-- The tokens of a pointer. -/
def parse? (pointer : String) : Option (List String) :=
  match pointer.toList with
  | [] => some []
  | '/' :: rest => some ((splitAll '/' rest).map readToken)
  | _ => none

/-- The index of an item that a token counts: without leading zeros, and
    less than the number of items. -/
def index? (token : String) (count : Nat) : Option Nat :=
  match token.toList with
  | '0' :: _ :: _ => none
  | cs => (word? cs).filter (· < count)

end Pointer

namespace Json

/-- What a path leads to. -/
def lookup? : Json → List String → Option Json
  | doc, [] => some doc
  | .object fields, token :: rest =>
      match Dict.find? fields token with
      | some child => lookup? child rest
      | none => none
  | .array items, token :: rest =>
      match (Pointer.index? token items.length).bind fun i => items[i]? with
      | some child => lookup? child rest
      | none => none
  | _, _ :: _ => none

/-- Put a value where a path leads to. -/
def replace? : Json → List String → Json → Option Json
  | _, [], value => some value
  | .object fields, token :: rest, value =>
      match Dict.find? fields token with
      | some child =>
          (replace? child rest value).map fun c =>
            .object (Dict.insert fields token c)
      | none => none
  | .array items, token :: rest, value =>
      match Pointer.index? token items.length with
      | some i =>
          match items[i]? with
          | some child =>
              (replace? child rest value).map fun c => .array (items.set i c)
          | none => none
      | none => none
  | _, _ :: _, _ => none

end Json

end LinkedContracts
