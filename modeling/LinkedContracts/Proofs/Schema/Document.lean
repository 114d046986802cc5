import LinkedContracts.Proofs.Schema.Induction
import LinkedContracts.Schema.Document

/-! # Schemas and their documents

    The document of a schema is read as the schema, whatever keywords are set
    at whatever depth.  Keywords that are not known change nothing of what is
    read, and no document of a schema has one. -/

namespace LinkedContracts

namespace Schema

/-! ## The values of keywords -/

theorem mapM_map_eq {α β : Type} {f : α → β} {g : β → Option α}
    (h : ∀ a, g (f a) = some a) (l : List α) : (l.map f).mapM g = some l := by
  induction l with
  | nil => rfl
  | cons a rest ih => simp [List.mapM_cons, h, ih]

theorem readTypeSet_typeSetJson (t : TypeSet) :
    readTypeSet (typeSetJson t) = some t := by
  have htype (t : JsonType) : readType (.string t.name) = some t :=
    JsonType.ofName?_name t
  cases t with
  | single t => exact congrArg (Option.map TypeSet.single) (htype t)
  | many ts => exact congrArg (Option.map TypeSet.many) (mapM_map_eq htype ts)

theorem readStrings_ofStrings (names : List String) :
    readStrings (Json.ofStrings names) = some names :=
  mapM_map_eq (f := Json.string) (g := Json.asString?) (fun _ => rfl) names

theorem readCount_ofNat (n : Nat) : readCount (Json.ofNat n) = some n := by
  simp [Json.ofNat, readCount]

theorem readRegexp_regexpJson (r : Regexp) : readRegexp (regexpJson r) = some r := by
  obtain ⟨pattern, flags⟩ := r
  cases flags with
  | none => rfl
  | some flags => rfl

theorem readSearch_searchJson (s : FullTextSearch) :
    readSearch (searchJson s) = some s := by
  cases s with
  | marker b => rfl
  | search term => rfl

/-- What is not null is read as something set. -/
theorem optionally_eq {α : Type} {read : Json → Option α} {j : Json} {a : α}
    (h : read j = some a) (hj : j ≠ .null) : optionally read j = some (some a) := by
  cases j with
  | null => exact absurd rfl hj
  | _ => exact congrArg (Option.map some) h

/-! ## The field of a keyword -/

/-- Read over the field of a keyword.  It is either not written, and then the
    keyword stays unset, or read and set. -/
theorem readKeywords_field {α : Type} (key : String)
    (read : Json → Option (Option α)) (doc : α → Json) (x : Option α)
    (set : Option α → Keywords Schema → Keywords Schema)
    (hset : ∀ value rest, readKeywords ((key, value) :: rest)
      = (readKeywords rest).bind fun kw => (read value).map fun x => set x kw)
    (hread : ∀ a ∈ x, read (doc a) = some (some a))
    {rest : List (String × Json)} {kw : Keywords Schema}
    (hunset : set none kw = kw) (hrest : readKeywords rest = some kw) :
    readKeywords (field key (x.map doc) ++ rest) = some (set x kw) := by
  cases x with
  | none => exact hrest.trans (congrArg some hunset.symm)
  | some a =>
      show readKeywords ((key, doc a) :: rest) = _
      rw [hset, hrest, hread a rfl]
      rfl

/-! ## The fields of a schema -/

/-- A list of schemas as a document. -/
def listDocument (ss : List Schema) : Json := .array (allJson ss)

/-- Schemas by name as a document. -/
def dictDocument (ss : List (String × Schema)) : Json := .object (fieldsJson ss)

/-- The keywords with their values as documents, keys in ascending order. -/
def documents (kw : Keywords Schema) : List (String × Option Json) :=
  [("$$links", kw.links.map dictDocument),
   ("additionalProperties", kw.additionalProperties.map toJson),
   ("allOf", kw.allOf.map listDocument),
   ("anyOf", kw.anyOf.map listDocument),
   ("const", kw.const),
   ("contains", kw.contains.map toJson),
   ("enum", kw.enum.map Json.array),
   ("exclusiveMaximum", kw.exclusiveMaximum.map boundJson),
   ("exclusiveMinimum", kw.exclusiveMinimum.map boundJson),
   ("format", kw.format.map Json.string),
   ("fullTextSearch", kw.fullTextSearch.map searchJson),
   ("items", kw.items.map toJson),
   ("maxItems", kw.maxItems.map Json.ofNat),
   ("maxLength", kw.maxLength.map Json.ofNat),
   ("maximum", kw.maximum.map boundJson),
   ("minItems", kw.minItems.map Json.ofNat),
   ("minLength", kw.minLength.map Json.ofNat),
   ("minimum", kw.minimum.map boundJson),
   ("not", kw.not.map toJson),
   ("pattern", kw.pattern.map Json.string),
   ("properties", kw.properties.map dictDocument),
   ("regexp", kw.regexp.map regexpJson),
   ("required", kw.required.map Json.ofStrings),
   ("type", kw.types.map typeSetJson)]

theorem map_toJson_eq (s : Option Schema) : s.map toJson = schemaJson s := by
  cases s <;> rfl

theorem map_listDocument_eq (ss : Option (List Schema)) :
    ss.map listDocument = listJson ss := by
  cases ss <;> rfl

theorem map_dictDocument_eq (ss : Option (List (String × Schema))) :
    ss.map dictDocument = dictJson ss := by
  cases ss <;> rfl

theorem flatMap_eq_foldl {α β : Type} (f : α → List β) (l : List α) :
    l.flatMap f = l.foldl (fun out a => out ++ f a) [] := by
  have hfold (out : List β) :
      l.foldl (fun out a => out ++ f a) out = out ++ l.flatMap f := by
    induction l generalizing out with
    | nil => exact (List.append_nil out).symm
    | cons a rest ih => rw [List.foldl_cons, ih, List.flatMap_cons, List.append_assoc]
  exact (hfold []).symm

/-- A schema is written keyword by keyword. -/
theorem keywordsJson_eq (kw : Keywords Schema) :
    keywordsJson kw = (documents kw).flatMap fun p => field p.1 p.2 := by
  rw [flatMap_eq_foldl]
  simp only [documents, map_toJson_eq, map_listDocument_eq, map_dictDocument_eq]
  cases kw
  rfl

/-! ## Parts -/

section

variable {s : Schema}

theorem readSchema_toJson (h : ofJson? s.toJson = some s) :
    readSchema s.toJson = some (some s) := by
  cases s with
  | bool b => rfl
  | node kw =>
      obtain ⟨kw', hkw, heq⟩ := Option.map_eq_some_iff.mp h
      obtain rfl := Schema.node.inj heq
      exact congrArg (Option.map fun kw => some (Schema.node kw)) hkw

theorem readAll_allJson {ss : List Schema}
    (h : ∀ s ∈ ss, ofJson? s.toJson = some s) : readAll (allJson ss) = some ss := by
  induction ss with
  | nil => rfl
  | cons s rest ih =>
      obtain ⟨hs, hrest⟩ := List.forall_mem_cons.mp h
      simp [allJson, readAll, hs, ih hrest]

theorem readFields_fieldsJson {ss : List (String × Schema)}
    (h : ∀ s ∈ ss.map (·.2), ofJson? s.toJson = some s) :
    readFields (fieldsJson ss) = some ss := by
  induction ss with
  | nil => rfl
  | cons p rest ih =>
      obtain ⟨hs, hrest⟩ := List.forall_mem_cons.mp h
      simp [fieldsJson, readFields, hs, ih hrest]

end

/-! ## Reading back -/

/-- The keywords of a schema are read back, if its parts are. -/
theorem readKeywords_keywordsJson {kw : Keywords Schema}
    (h : ∀ s ∈ kw.parts, ofJson? s.toJson = some s) :
    readKeywords (keywordsJson kw) = some kw := by
  have hschema {o : Option Schema} (ho : ∀ s ∈ o.toList, s ∈ kw.parts) :
      ∀ s ∈ o, readSchema s.toJson = some (some s) := fun s hs =>
    readSchema_toJson (h s (ho s (Option.mem_toList.mpr hs)))
  have hlist {o : Option (List Schema)} (ho : ∀ s ∈ o.getD [], s ∈ kw.parts) :
      ∀ ss ∈ o, readSchemaList (listDocument ss) = some (some ss) := by
    rintro ss rfl
    exact congrArg (Option.map some) (readAll_allJson fun s hs => h s (ho s hs))
  have hdict {o : Option (List (String × Schema))}
      (ho : ∀ s ∈ Keywords.namedParts o, s ∈ kw.parts) :
      ∀ ss ∈ o, readSchemaDict (dictDocument ss) = some (some ss) := by
    rintro ss rfl
    exact congrArg (Option.map some)
      (readFields_fieldsJson fun s hs => h s (ho s hs))
  have htypes (t : TypeSet) : optionally readTypeSet (typeSetJson t) = some (some t) :=
    optionally_eq (readTypeSet_typeSetJson t) (by cases t <;> exact nofun)
  have hregexp (r : Regexp) : optionally readRegexp (regexpJson r) = some (some r) :=
    optionally_eq (readRegexp_regexpJson r) (by
      obtain ⟨pattern, flags⟩ := r
      cases flags <;> exact nofun)
  have hsearch (s : FullTextSearch) :
      optionally readSearch (searchJson s) = some (some s) :=
    optionally_eq (readSearch_searchJson s) (by cases s <;> exact nofun)
  have hcount (n : Nat) : optionally readCount (Json.ofNat n) = some (some n) :=
    optionally_eq (readCount_ofNat n) nofun
  have hstrings (names : List String) :
      optionally readStrings (Json.ofStrings names) = some (some names) :=
    optionally_eq (readStrings_ofStrings names) nofun
  -- the keywords are read from the last field to the first
  have r : readKeywords [] = some {} := rfl
  have r := readKeywords_field "type" (optionally readTypeSet) typeSetJson
    kw.types (fun x k => { k with types := x })
    (fun _ _ => rfl) (fun t _ => htypes t) rfl r
  have r := readKeywords_field "required" (optionally readStrings) Json.ofStrings
    kw.required (fun x k => { k with required := x })
    (fun _ _ => rfl) (fun names _ => hstrings names) rfl r
  have r := readKeywords_field "regexp" (optionally readRegexp) regexpJson
    kw.regexp (fun x k => { k with regexp := x })
    (fun _ _ => rfl) (fun r _ => hregexp r) rfl r
  have r := readKeywords_field "properties" readSchemaDict dictDocument
    kw.properties (fun x k => { k with properties := x })
    (fun _ _ => rfl) (hdict (by simp +contextual [Keywords.parts])) rfl r
  have r := readKeywords_field "pattern" (optionally Json.asString?) Json.string
    kw.pattern (fun x k => { k with pattern := x })
    (fun _ _ => rfl) (fun _ _ => rfl) rfl r
  have r := readKeywords_field "not" readSchema toJson
    kw.not (fun x k => { k with not := x })
    (fun _ _ => rfl) (hschema (by simp +contextual [Keywords.parts])) rfl r
  have r := readKeywords_field "minimum" (optionally readBound) boundJson
    kw.minimum (fun x k => { k with minimum := x })
    (fun _ _ => rfl) (fun _ _ => rfl) rfl r
  have r := readKeywords_field "minLength" (optionally readCount) Json.ofNat
    kw.minLength (fun x k => { k with minLength := x })
    (fun _ _ => rfl) (fun n _ => hcount n) rfl r
  have r := readKeywords_field "minItems" (optionally readCount) Json.ofNat
    kw.minItems (fun x k => { k with minItems := x })
    (fun _ _ => rfl) (fun n _ => hcount n) rfl r
  have r := readKeywords_field "maximum" (optionally readBound) boundJson
    kw.maximum (fun x k => { k with maximum := x })
    (fun _ _ => rfl) (fun _ _ => rfl) rfl r
  have r := readKeywords_field "maxLength" (optionally readCount) Json.ofNat
    kw.maxLength (fun x k => { k with maxLength := x })
    (fun _ _ => rfl) (fun n _ => hcount n) rfl r
  have r := readKeywords_field "maxItems" (optionally readCount) Json.ofNat
    kw.maxItems (fun x k => { k with maxItems := x })
    (fun _ _ => rfl) (fun n _ => hcount n) rfl r
  have r := readKeywords_field "items" readSchema toJson
    kw.items (fun x k => { k with items := x })
    (fun _ _ => rfl) (hschema (by simp +contextual [Keywords.parts])) rfl r
  have r := readKeywords_field "fullTextSearch" (optionally readSearch) searchJson
    kw.fullTextSearch (fun x k => { k with fullTextSearch := x })
    (fun _ _ => rfl) (fun s _ => hsearch s) rfl r
  have r := readKeywords_field "format" (optionally Json.asString?) Json.string
    kw.format (fun x k => { k with format := x })
    (fun _ _ => rfl) (fun _ _ => rfl) rfl r
  have r := readKeywords_field "exclusiveMinimum" (optionally readBound) boundJson
    kw.exclusiveMinimum (fun x k => { k with exclusiveMinimum := x })
    (fun _ _ => rfl) (fun _ _ => rfl) rfl r
  have r := readKeywords_field "exclusiveMaximum" (optionally readBound) boundJson
    kw.exclusiveMaximum (fun x k => { k with exclusiveMaximum := x })
    (fun _ _ => rfl) (fun _ _ => rfl) rfl r
  have r := readKeywords_field "enum" (optionally Json.asArray?) Json.array
    kw.enum (fun x k => { k with enum := x })
    (fun _ _ => rfl) (fun _ _ => rfl) rfl r
  have r := readKeywords_field "contains" readSchema toJson
    kw.contains (fun x k => { k with contains := x })
    (fun _ _ => rfl) (hschema (by simp +contextual [Keywords.parts])) rfl r
  have r := readKeywords_field "const" (fun v => some (some v)) id
    kw.const (fun x k => { k with const := x })
    (fun _ _ => rfl) (fun _ _ => rfl) rfl r
  have r := readKeywords_field "anyOf" readSchemaList listDocument
    kw.anyOf (fun x k => { k with anyOf := x })
    (fun _ _ => rfl) (hlist (by simp +contextual [Keywords.parts])) rfl r
  have r := readKeywords_field "allOf" readSchemaList listDocument
    kw.allOf (fun x k => { k with allOf := x })
    (fun _ _ => rfl) (hlist (by simp +contextual [Keywords.parts])) rfl r
  have r := readKeywords_field "additionalProperties" readSchema toJson
    kw.additionalProperties (fun x k => { k with additionalProperties := x })
    (fun _ _ => rfl) (hschema (by simp +contextual [Keywords.parts])) rfl r
  have r := readKeywords_field "$$links" readSchemaDict dictDocument
    kw.links (fun x k => { k with links := x })
    (fun _ _ => rfl) (hdict (by simp +contextual [Keywords.parts])) rfl r
  have hconst : kw.const.map id = kw.const := Option.map_id_apply
  refine Eq.trans ?_ (r.trans (congrArg some ?_))
  · rw [keywordsJson_eq, hconst]
    rfl
  · clear r hschema hlist hdict h
    cases kw
    rfl

/-- The document of a schema is read as the schema. -/
theorem ofJson?_toJson (s : Schema) : ofJson? s.toJson = some s := by
  induction s using induct with
  | bool b => rfl
  | node kw ih => exact congrArg (Option.map Schema.node) (readKeywords_keywordsJson ih)

theorem ofJson_toJson (s : Schema) : ofJson s.toJson = .ok s := by
  have hread := ofJson?_toJson s
  cases s with
  | bool b => rfl
  | node kw =>
      rw [toJson] at hread ⊢
      rw [ofJson, hread]

/-! ## Unknown keywords -/

/-- The names of the keywords. -/
def keywordNames : List String := (documents {}).map (·.1)

theorem readKeywords_unknown {key : String} (h : key ∉ keywordNames) (value : Json)
    (rest : List (String × Json)) :
    readKeywords ((key, value) :: rest) = readKeywords rest := by
  have hplain (kw : Keywords Schema) : setPlain kw key value = some kw := by
    -- each case is for the name of a keyword, save for the last
    unfold setPlain
    split <;> first | rfl | exact absurd (by decide) h
  rw [readKeywords]
  cases readKeywords rest with
  | none => rfl
  | some kw =>
      simp only [Option.bind_eq_bind, Option.bind_some]
      split <;> first | exact hplain kw | exact absurd (by decide) h

/-- Only the fields of keywords are read. -/
theorem readKeywords_filter (fields : List (String × Json)) :
    readKeywords (fields.filter fun p => p.1 ∈ keywordNames)
      = readKeywords fields := by
  induction fields with
  | nil => rfl
  | cons p rest ih =>
      obtain ⟨key, value⟩ := p
      by_cases h : key ∈ keywordNames
      · rw [List.filter_cons_of_pos (by simpa using h), readKeywords, readKeywords, ih]
      · rw [List.filter_cons_of_neg (by simpa using h), ih,
          readKeywords_unknown h]

theorem mem_keywordNames {kw : Keywords Schema} {p : String × Json}
    (h : p ∈ keywordsJson kw) : p.1 ∈ keywordNames := by
  rw [keywordsJson_eq] at h
  obtain ⟨⟨key, value⟩, hkey, hp⟩ := List.mem_flatMap.mp h
  obtain rfl : p.1 = key := by
    cases value with
    | none => cases hp
    | some j => rw [List.mem_singleton.mp hp]
  exact List.mem_map_of_mem (f := Prod.fst) hkey

theorem ofJson_object_congr {fields fields' : List (String × Json)}
    (h : readKeywords fields = readKeywords fields') :
    ofJson (.object fields) = ofJson (.object fields') := by
  have hread : ofJson? (.object fields) = ofJson? (.object fields') :=
    congrArg (Option.map Schema.node) h
  rw [ofJson, ofJson, hread]

/-- Reading and writing schemas are inverse.  What a document is read as is
    read from its own document, so that reading and writing once more changes
    nothing.  Keywords that are not known are dropped: they are neither read
    nor written. -/
theorem document_reread :
    (∀ v s, ofJson v = .ok s → ofJson s.toJson = .ok s)
    ∧ (∀ v w, (ofJson v).map toJson = .ok w → (ofJson w).map toJson = .ok w)
    ∧ (∀ fields, ofJson (.object fields)
      = ofJson (.object (fields.filter fun p => p.1 ∈ keywordNames)))
    ∧ ∀ kw, ∀ p ∈ keywordsJson kw, p.1 ∈ keywordNames := by
  refine ⟨fun _ s _ => ofJson_toJson s, fun v w h => ?_, fun fields => ?_,
    fun kw p hp => mem_keywordNames hp⟩
  · cases hread : ofJson v with
    | error e => rw [hread] at h; cases h
    | ok s =>
        rw [hread] at h
        obtain rfl : s.toJson = w := Except.ok.inj h
        rw [ofJson_toJson]
        rfl
  · exact ofJson_object_congr (readKeywords_filter fields).symm

/-- A document with null for a value and for a keyword, empty lists, both
    marks of a text search, and keywords that are not known. -/
def annotated : Json :=
  .object
    [("$$links", .object [("is owned by", .object [("not", .bool false),
       ("title", .string "Owned")])]),
     ("anyOf", .array []),
     ("const", .null),
     ("enum", .array []),
     ("fullTextSearch", .object [("term", .string "some words")]),
     ("items", .null),
     ("properties", .object [("data", .object [("const", .null),
       ("description", .null), ("fullTextSearch", .bool true),
       ("type", .array [.string "string", .string "null"])])]),
     ("required", .array []),
     ("title", .string "Annotated"),
     ("type", .string "object")]

/-- What the document asks for. -/
def unannotated : Schema :=
  .node {
    links := some [("is owned by", .node { not := some (.bool false) })]
    anyOf := some []
    const := some .null
    enum := some []
    fullTextSearch := some (.search "some words")
    properties := some [("data", .node {
      const := some .null
      fullTextSearch := some (.marker true)
      types := some (.many [.string, .null]) })]
    required := some []
    types := some (.single .object) }

theorem document_reread_annotated :
    ofJson annotated = .ok unannotated
      ∧ ofJson unannotated.toJson = .ok unannotated
      ∧ (ofJson unannotated.toJson).map toJson = .ok unannotated.toJson :=
  ⟨rfl, document_reread.1 annotated unannotated rfl,
    document_reread.2.1 annotated unannotated.toJson rfl⟩

end Schema

end LinkedContracts
