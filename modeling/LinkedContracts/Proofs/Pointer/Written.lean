import LinkedContracts.Patch
import LinkedContracts.Proofs.Pointer
import LinkedContracts.Proofs.Text.Split
import Mathlib.Logic.ExistsUnique

/-! # Pointers written

    A pointer is written with a slash before each token, in which a tilde is
    written `~0` and then a slash `~1`.  What is written is read back: an
    escaped token has no slash, so that the pointer is cut where it was put
    together, and no tilde that a `1` follows but for an escaped slash, so
    that the slashes that are read are those that were written.

    So every path has one pointer that is written for it, and the first token
    of the path itself tells whether a patch may change what it leads to. -/

namespace LinkedContracts

namespace Pointer

/-! ## Writing -/

/-- A token with its tildes, and then its slashes, escaped. -/
def escape (token : String) : String :=
  replaceIn '/' "~1" (replaceIn '~' "~0" token)

/-- The pointer of a path. -/
def write (path : List String) : String :=
  String.join (path.map fun token => "/" ++ escape token)

/-- A character of a token, escaped. -/
def escapeChar (c : Char) : List Char :=
  if c = '~' then ['~', '0'] else if c = '/' then ['~', '1'] else [c]

/-- The two replacements do not get into each other's way: each character is
    escaped by itself. -/
theorem toList_escape (token : String) :
    (escape token).toList = token.toList.flatMap escapeChar :=
  toList_replaceIn_replaceIn (by decide) "~1" token

theorem slash_not_mem_escape (token : String) : '/' ∉ (escape token).toList := by
  rw [toList_escape, List.mem_flatMap]
  rintro ⟨c, -, hc⟩
  rw [escapeChar] at hc
  split at hc
  · simp at hc
  · split at hc
    · simp at hc
    · next hslash => exact hslash (List.mem_singleton.mp hc).symm

theorem toList_write_nil : (write []).toList = [] := rfl

theorem toList_write_cons (token : String) (path : List String) :
    (write (token :: path)).toList
      = '/' :: ((escape token).toList ++ (write path).toList) := by
  simp [write, String.join_cons]

/-! ## Reading back -/

/-- Reading the slashes of an escaped token leaves its tildes escaped. -/
theorem readSlashes_flatMap (cs : List Char) :
    readSlashes (cs.flatMap escapeChar) = replaceChar '~' ['~', '0'] cs := by
  induction cs with
  | nil => rfl
  | cons c rest ih =>
      rw [List.flatMap_cons, replaceChar_cons, ← ih, escapeChar]
      by_cases htilde : c = '~'
      · subst htilde
        show readSlashes ('~' :: '0' :: _) = '~' :: '0' :: _
        simp [readSlashes]
      · rw [if_neg htilde, if_neg htilde]
        by_cases hslash : c = '/'
        · subst hslash
          rfl
        · rw [if_neg hslash]
          show readSlashes (c :: _) = c :: _
          simp [readSlashes, htilde]

theorem readTildes_replaceChar (cs : List Char) :
    readTildes (replaceChar '~' ['~', '0'] cs) = cs := by
  induction cs with
  | nil => rfl
  | cons c rest ih =>
      rw [replaceChar_cons]
      by_cases htilde : c = '~'
      · subst htilde
        show '~' :: readTildes (replaceChar '~' ['~', '0'] rest) = '~' :: rest
        rw [ih]
      · rw [if_neg htilde]
        show readTildes (c :: _) = c :: rest
        simp [readTildes, htilde, ih]

/-- An escaped token is read back. -/
theorem readToken_escape (token : String) : readToken (escape token).toList = token := by
  rw [readToken, toList_escape, readSlashes_flatMap, readTildes_replaceChar,
    String.ofList_toList]

/-- A pointer is cut where its tokens were put together. -/
theorem splitAll_write (token : String) (path : List String) :
    splitAll '/' ((escape token).toList ++ (write path).toList)
      = (token :: path).map fun t => (escape t).toList := by
  induction path generalizing token with
  | nil =>
      rw [toList_write_nil, List.append_nil,
        splitAll_of_not_mem (slash_not_mem_escape token)]
      rfl
  | cons next rest ih =>
      rw [toList_write_cons, splitAll_append (slash_not_mem_escape token), ih next]
      rfl

/-- The pointer of a path is read as that path. -/
theorem parse?_write (path : List String) : parse? (write path) = some path := by
  cases path with
  | nil => rfl
  | cons token rest =>
      have hread : ((fun t => readToken (escape t).toList) : String → String) = id :=
        funext readToken_escape
      rw [parse?, toList_write_cons]
      show some ((splitAll '/' _).map readToken) = _
      rw [splitAll_write, List.map_map]
      show some ((token :: rest).map fun t => readToken (escape t).toList) = _
      rw [hread, List.map_id]

/-! ## The keys of a contract -/

/-- A pointer that is written for some path leads to the key of the object at
    `above` in a contract: it reads as the path of the key, and what is found
    there is the value at the key. -/
structure Addresses (pointer : String) (contract : Json) (above : List String)
    (key : String) (value : Json) : Prop where
  written : ∃ path, pointer = write path
  reads : parse? pointer = some (above ++ [key])
  leads : (parse? pointer).bind contract.lookup? = some value

/-- The key of an object in a contract is found at the path of the object and
    the key. -/
theorem lookup?_key {contract : Json} {above : List String} {fields : Dict Json}
    {key : String} (h : contract.lookup? above = some (.object fields)) :
    contract.lookup? (above ++ [key]) = Dict.find? fields key := by
  rw [Json.lookup?_append, h, Option.bind_some, Json.lookup?_object]

/-- What is written for a path reads as nothing but the path.  So each key of
    each object in a contract, whatever its characters, has one written pointer
    that leads to it, and a patch may change what a written pointer leads to
    unless the first token of its path, as it is, is among those of immutable
    properties. -/
theorem written_and_read :
    (∀ path : List String, parse? (write path) = some path)
      ∧ (∀ (contract : Json) (above : List String) (fields : Dict Json) (key : String)
          (value : Json), contract.lookup? above = some (.object fields) →
          Dict.find? fields key = some value →
          ∃! pointer, Addresses pointer contract above key value)
      ∧ ∀ (first : String) (below : List String),
          Patch.isImmutable (write (first :: below)) = true ↔ first ∈ Patch.immutable := by
  refine ⟨parse?_write, ?_, ?_⟩
  · intro contract above fields key value habove hkey
    refine ⟨write (above ++ [key]), ⟨⟨_, rfl⟩, parse?_write _, ?_⟩, ?_⟩
    · rw [parse?_write, Option.bind_some, lookup?_key habove, hkey]
    · rintro pointer ⟨⟨path, rfl⟩, hreads, -⟩
      rw [parse?_write] at hreads
      exact congrArg write (Option.some.inj hreads)
  · intro first below
    rw [Patch.isImmutable, parse?_write]
    exact decide_eq_true_iff

/-- A key that holds both what escapes are made of and a slash, inside a
    property whose name only starts like that of an immutable one. -/
theorem written_and_read_escaped :
    let inner : Dict Json := [("~1/", .null)]
    let contract : Json := .object [("links/", .object inner)]
    contract.lookup? ["links/"] = some (.object inner)
      ∧ Dict.find? inner "~1/" = some .null
      ∧ (∃! pointer, Addresses pointer contract ["links/"] "~1/" .null)
      ∧ write ["links/", "~1/"] = "/links~1/~01~1"
      ∧ parse? "/links~1/~01~1" = some ["links/", "~1/"]
      ∧ Patch.isImmutable "/links~1/~01~1" = false
      ∧ Patch.isImmutable "/links/~01~1" = true := by
  intro inner contract
  have habove : contract.lookup? ["links/"] = some (.object inner) := rfl
  have hkey : Dict.find? inner "~1/" = some .null := rfl
  have hinside : write ["links/", "~1/"] = "/links~1/~01~1" := by decide
  have hbelow : write ["links", "~1/"] = "/links/~01~1" := by decide
  obtain ⟨hparse, hone, himmutable⟩ := written_and_read
  refine ⟨habove, hkey, hone contract _ inner _ _ habove hkey, hinside, ?_, ?_, ?_⟩
  · rw [← hinside]
    exact hparse _
  · rw [← hinside]
    have hnot : "links/" ∉ Patch.immutable := by decide
    exact Bool.eq_false_iff.mpr fun h => hnot ((himmutable _ _).mp h)
  · rw [← hbelow]
    exact (himmutable _ _).mpr (by decide)

end Pointer

end LinkedContracts
