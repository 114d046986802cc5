import LinkedContracts.Proofs.Builtin
import LinkedContracts.Proofs.Kernel.Fitting

/-! # Built-in types

    The schemas of the built-in types read columns of a contract that are
    stored as they are given, so that a built-in contract fits its type
    whatever id and times it has, and whatever is linked to it.  Only the
    session depends on something else: the id of its actor.

    The schemas match texts with a few patterns.  A library has to read these,
    and to find that they match the texts in the built-in contracts. -/

namespace LinkedContracts

/-- Whether a text is of the format of ids. -/
def IsUuid [TextLibrary] (s : String) : Prop :=
  (Schema.formatPattern? "uuid").all (Keywords.matchesPattern · false s) = true

instance [TextLibrary] (s : String) : Decidable (IsUuid s) :=
  inferInstanceAs (Decidable (_ = true))

namespace Builtin

/-! ## Patterns -/

/-- The patterns of the types that the built-in contracts have, each with the texts
    in these contracts that it is to match. -/
def patterns : List (String × List String) :=
  [("^[a-z0-9-]+$", ["type", "session", "user", "role", "card", "org", "view", "link"]),
   ("^user-[a-zA-Z0-9-]+$", ["user-admin"]),
   ("^role-[a-z0-9-]+$", ["role-user-admin"]),
   ((Schema.formatPattern? "email").getD "", ["admin@example.com"]),
   ((Schema.formatPattern? "date-time").getD "", []),
   ((Schema.formatPattern? "uuid").getD "", [])]

end Builtin

/-- What the types of the built-in contracts ask of a library. -/
class TextLibrary.ReadsBuiltin [TextLibrary] : Prop where
  /-- It reads their patterns and finds the texts that match. -/
  reads : ∀ p ∈ Builtin.patterns,
    (TextLibrary.matcher? p.1 false).any (fun matches? => p.2.all matches?) = true
  /-- The empty text is no id. -/
  nonempty : ¬IsUuid ""

instance : TextLibrary.ReadsBuiltin where
  reads := by decide +kernel
  nonempty := by decide +kernel

theorem isEmpty_of_isUuid [TextLibrary] [TextLibrary.ReadsBuiltin] {s : String}
    (h : IsUuid s) : s.isEmpty = false := by
  cases hs : s.isEmpty with
  | false => rfl
  | true =>
      rw [String.isEmpty_iff.mp hs] at h
      exact absurd h TextLibrary.ReadsBuiltin.nonempty

namespace TextLibrary

/-- A library that finds by table what the types of the built-in contracts ask for,
    and everything else by another one. -/
abbrev tabled (library : TextLibrary) : TextLibrary where
  matcher? source ignoreCase :=
    match ignoreCase, Builtin.patterns.lookup source with
    | false, some texts => some fun text =>
        texts.contains text || (library.matcher? source false).any fun matches? => matches? text
    | _, _ => library.matcher? source ignoreCase
  slug := library.slug

/-- A library that reads the patterns finds by the table what it finds itself. -/
theorem tabled_eq [library : TextLibrary] [hreads : ReadsBuiltin] :
    library.tabled = library := by
  have hreads := hreads.reads
  obtain ⟨matcher?, slug⟩ := library
  refine congrArg (TextLibrary.mk · slug) (funext fun source => funext fun ignoreCase => ?_)
  split
  · next texts hlookup =>
      obtain ⟨before, after, hpatterns, -⟩ := List.lookup_eq_some_iff.mp hlookup
      have hmem : (source, texts) ∈ Builtin.patterns := by
        rw [hpatterns]
        exact List.mem_append_right _ List.mem_cons_self
      obtain ⟨matches?, hread, hall⟩ := (Option.any_eq_true _ _).mp (hreads _ hmem)
      dsimp only at hread hall ⊢
      rw [hread]
      refine congrArg some (funext fun text => ?_)
      simp only [List.all_eq_true] at hall
      by_cases htext : text ∈ texts
      · simp [htext, hall text htext]
      · simp [htext]
  · rfl

end TextLibrary

namespace Builtin

open Kernel

/-- The schema that the definition of a type gives its contracts. -/
def schemaIn (type : Json) : Except Error Schema :=
  schemaOf (contract type "" ⟨0, 0⟩ none)

/-- Whether a schema of properties reads only columns that are stored as they
    are given. -/
def readsGiven : Schema → Bool
  | .bool _ => true
  | .node kw =>
      kw.const.isNone && kw.enum.isNone && kw.fullTextSearch.isNone && kw.links.isNone
        && kw.allOf.isNone && kw.anyOf.isNone && kw.not.isNone
        && (kw.properties.getD []).all fun p => p.1 ∈ givenColumns

theorem reads_of_readsGiven {s : Schema} (h : readsGiven s = true) :
    s.Reads givenColumns := by
  cases s with
  | bool accepts => exact .bool accepts
  | node kw =>
      simp only [readsGiven, Bool.and_eq_true, Option.isNone_iff_eq_none, List.all_eq_true,
        decide_eq_true_eq] at h
      obtain ⟨⟨⟨⟨⟨⟨⟨hconst, henum⟩, hsearch⟩, hlinks⟩, hallOf⟩, hanyOf⟩, hnot⟩,
        hproperties⟩ := h
      refine .node kw hconst henum ?_ hlinks (fun p hp _ => hproperties p hp) ?_ ?_ ?_
      · rw [hsearch]
        rfl
      · simp [hallOf]
      · simp [hanyOf]
      · simp [hnot]

/-- Whether a type accepts a built-in contract. -/
def accepts [TextLibrary] (type definition : Json) : Bool :=
  match schemaIn type with
  | .ok s => (Validator.ofSchema s).isOk && readsGiven s
      && s.meets (fun _ _ => []) .contract (contract definition "" ⟨0, 0⟩ none).toJson
  | .error _ => false

/-- An id and a time are no columns that are stored as they are given. -/
theorem agreeOn_contract (definition : Json) (id id' : String)
    (createdAt createdAt' : Instant) :
    Schema.AgreeOn givenColumns (contract definition id createdAt none).toJson
      (contract definition id' createdAt' none).toJson := by
  intro key hkey
  obtain ⟨-, hid, -, hlinks⟩ := exact_of_given hkey
  have hcreated : "created_at" ≠ key := by
    rintro rfl
    exact absurd hkey (by decide)
  rw [field?_toJson _ hlinks, field?_toJson _ hlinks]
  refine congrArg (Option.getD · Json.null) ?_
  iterate 2 refine Dict.find?_cons_congr (fun _ => rfl) ?_
  refine Dict.find?_cons_congr (fun h => absurd h hcreated) ?_
  refine Dict.find?_cons_congr (fun _ => rfl) ?_
  exact Dict.find?_cons_congr (fun h => absurd h.symm hid) rfl

section

variable [TextLibrary]

theorem compiles_of_isOk {s : Schema} (h : (Validator.ofSchema s).isOk = true) :
    s.Compiles := by
  refine Validator.ofSchema_ok.mp ?_
  cases hv : Validator.ofSchema s with
  | ok v => exact ⟨v, rfl⟩
  | error e =>
      rw [hv] at h
      cases h

/-- What a type accepts fits it with any id and time. -/
theorem check_of_accepts {k : Kernel} (hk : k.Sound) {type definition : Json}
    (h : accepts type definition = true) (id : String) (createdAt : Instant) :
    ∃ schema, schemaIn type = .ok schema
      ∧ schema.check (contract definition id createdAt none).toJson k.linkSource = .ok () := by
  rw [accepts] at h
  split at h
  · next schema hschema =>
      simp only [Bool.and_eq_true] at h
      obtain ⟨⟨hvalid, hreads⟩, hmeets⟩ := h
      refine ⟨schema, hschema, (hk.check_ok _).mpr ⟨compiles_of_isOk hvalid, ?_⟩⟩
      rw [← hmeets]
      exact (reads_of_readsGiven hreads).meets_congr
        (agreeOn_contract definition id "" createdAt ⟨0, 0⟩)
  · cases h

/-- Whether a type does not accept a built-in contract, whatever id and times
    it has. -/
def refuses (type definition : Json) : Bool :=
  match schemaIn type with
  | .ok s => readsGiven s
      && !s.meets (fun _ _ => []) .contract (contract definition "" ⟨0, 0⟩ none).toJson
  | .error _ => true

theorem not_check_of_refuses {k : Kernel} (hk : k.Sound) {type definition : Json}
    (h : refuses type definition = true) (id : String) (createdAt : Instant)
    {schema : Schema} (hschema : schemaIn type = .ok schema) :
    schema.check (contract definition id createdAt none).toJson k.linkSource ≠ .ok () := by
  intro hcheck
  obtain ⟨-, hmeets⟩ := (hk.check_ok _).mp hcheck
  simp only [refuses, hschema, Bool.and_eq_true, Bool.not_eq_true'] at h
  rw [(reads_of_readsGiven h.1).meets_congr
    (agreeOn_contract definition id "" createdAt ⟨0, 0⟩), h.2] at hmeets
  cases hmeets

end

/-! ## Schemas of types -/

/-- The keyword for a type of values. -/
def ofType (t : JsonType) : Keywords Schema := { types := some (.single t) }

/-- The schema of texts that match a pattern. -/
def textOf (pattern : String) : Schema :=
  .node { ofType .string with pattern := some pattern }

/-- The schema of texts of a format. -/
def textIn (format : String) : Schema :=
  .node { ofType .string with format := some format }

/-- The schema of arrays of items. -/
def arrayOf (items : Schema) : Schema := .node { ofType .array with items := some items }

/-- The schema of objects with properties, some of which have to be there. -/
def objectOf (properties : List (String × Schema)) (required : Option (List String)) :
    Schema :=
  .node { ofType .object with properties := some properties, required := required }

/-- The schema of types. -/
def typeSchema : Schema :=
  objectOf
    [("data", objectOf
       [("indexed_fields", arrayOf (arrayOf (.node (ofType .string)))),
        ("schema", .node (ofType .object)),
        ("uiSchema", .node (ofType .object))]
       (some ["schema"])),
     ("slug", textOf "^[a-z0-9-]+$"),
     ("type", .node { ofType .string with
        enum := some [.string "type", .string "type@1.0.0"] })]
    (some ["slug", "type", "data"])

/-- The schema of sessions. -/
def sessionSchema : Schema :=
  objectOf
    [("data", objectOf
       [("actor", textIn "uuid"),
        ("expiration", textIn "date-time"),
        ("scope", .node (ofType .object)),
        ("token", objectOf [("authentication", .node (ofType .string))] none)]
       (some ["actor"]))]
    (some ["data"])

/-- The schema of users. -/
def userSchema : Schema :=
  objectOf
    [("data", objectOf
       [("email", .disj [textIn "email", arrayOf (textIn "email")]),
        ("hash", .node (ofType .string)),
        ("roles", arrayOf (textOf "^[a-z0-9-]+$"))]
       (some ["roles"])),
     ("slug", textOf "^user-[a-zA-Z0-9-]+$")]
    (some ["slug", "data"])

/-- The schema of roles. -/
def roleSchema : Schema :=
  objectOf
    [("data", objectOf
       [("read", .node { types := some (.many [.object, .boolean]) })]
       (some ["read"])),
     ("slug", textOf "^role-[a-z0-9-]+$")]
    (some ["slug", "data"])

theorem schemaIn_typeType : schemaIn typeType = .ok typeSchema := by
  rfl

theorem schemaIn_session : schemaIn session = .ok sessionSchema := by
  rfl

theorem schemaIn_user : schemaIn user = .ok userSchema := by
  rfl

theorem schemaIn_role : schemaIn role = .ok roleSchema := by
  rfl

/-! ## What fits -/

variable [library : TextLibrary]

theorem meets_session (links : Json → String → List Json) (actor id : String)
    (createdAt : Instant) :
    sessionSchema.meets links .contract (contract (adminSession actor) id createdAt none).toJson
      = true ↔ IsUuid actor := by
  have hdata : Place.contract.property? (contract (adminSession actor) id createdAt none).toJson
      "data" = some (.object [("actor", .string actor)]) := rfl
  have hactor : Place.value.property? (.object [("actor", .string actor)]) "actor"
      = some (.string actor) := rfl
  have hmissing : ∀ name ∈ ["expiration", "scope", "token"], Place.value.property?
      (.object [("actor", .string actor)]) name = none := by
    simp [Place.property?, Json.field?, Dict.find?]
  simp only [List.forall_mem_cons] at hmissing
  obtain ⟨hexpiration, hscope, htoken, -⟩ := hmissing
  simp only [sessionSchema, objectOf, textIn, ofType, Schema.meets, Schema.propertiesMeet,
    Schema.fieldsMeet, hdata, hactor, hexpiration, hscope, htoken, Option.all_some,
    Option.all_none]
  simp [Schema.eachMeets, Schema.someMeets, Schema.allMeet, Schema.anyMeets,
    Schema.notMeets, Schema.linksMeet, Keywords.plainMeets, Keywords.scalarMeets,
    Keywords.stringMeets, TypeSet.toList, Place.hasType, JsonType.holds, Place.items?,
    hdata, hactor, IsUuid]

variable [TextLibrary.ReadsBuiltin]

/-- What fits a type if texts are matched by the table fits it. -/
theorem accepts_of_tabled {type definition : Json} {s : Schema}
    (hschema : schemaIn type = .ok s)
    (hcompiles : (@Validator.ofSchema library.tabled s).isOk = true)
    (hreads : readsGiven s = true)
    (hmeets : @Schema.meets library.tabled (fun _ _ => []) s .contract
      (contract definition "" ⟨0, 0⟩ none).toJson = true) :
    accepts type definition = true := by
  rw [library.tabled_eq] at hcompiles hmeets
  rw [accepts, hschema]
  simp only [hcompiles, hreads, hmeets, Bool.and_self]

theorem typeType_accepts : ∀ type ∈ coreTypes ++ extraTypes,
    accepts typeType type = true := by
  intro type htype
  refine accepts_of_tabled schemaIn_typeType rfl rfl ?_
  revert type
  simp only [coreTypes, extraTypes, List.cons_append, List.nil_append,
    List.forall_mem_cons]
  exact ⟨rfl, rfl, rfl, rfl, rfl, rfl, rfl, rfl, List.forall_mem_nil _⟩

theorem role_accepts : accepts role adminRole = true :=
  accepts_of_tabled schemaIn_role rfl rfl rfl

theorem user_accepts : accepts user admin = true :=
  accepts_of_tabled schemaIn_user rfl rfl rfl

theorem compiles_sessionSchema : sessionSchema.Compiles := by
  refine compiles_of_isOk ?_
  rw [← library.tabled_eq]
  rfl

/-- A session of an actor fits its type exactly if the id of the actor is of
    the format of ids. -/
theorem check_session {k : Kernel} (hk : k.Sound) (actor id : String)
    (createdAt : Instant) :
    sessionSchema.check (contract (adminSession actor) id createdAt none).toJson k.linkSource
      = .ok () ↔ IsUuid actor := by
  rw [hk.check_ok, meets_session]
  exact and_iff_right compiles_sessionSchema

end Builtin

end LinkedContracts
