import LinkedContracts.Proofs.Json.Text
import LinkedContracts.Proofs.Version
import LinkedContracts.Store

/-! # Contracts read back

    A contract is kept as the text of its row.  Whatever is read back from
    there has the identity of the contract: its id, slug, type and version,
    and everything else that is text; and it has no links. -/

namespace LinkedContracts

deriving instance DecidableEq for Contract

namespace Contract

/-! ## Reading fields -/

/-- How each part of a contract is read from fields by name. -/
structure ReadFrom (field : String → Option Json) (c : Contract) : Prop where
  id : required Json.asString? (field "id") = some c.id
  slug : required Json.asString? (field "slug") = some c.slug
  type : required Json.asString? (field "type") = some c.type
  version : required Json.asString? (field "version") = some c.version
  name : defaulted none (nullable Json.asString?) (field "name") = some c.name
  active : defaulted true readBool (field "active") = some c.active
  tags : defaulted [] (itemsOf Json.asString?) (field "tags") = some c.tags
  markers :
    defaulted [] (itemsOf Json.asString?) (field "markers") = some c.markers
  requires : defaulted [] Json.asArray? (field "requires") = some c.requires
  capabilities :
    defaulted [] Json.asArray? (field "capabilities") = some c.capabilities
  links : defaulted [] (valuesOf Json.asArray?) (field "links") = some c.links
  linkedAt :
    defaulted [] (valuesOf readInstant) (field "linked_at") = some c.linkedAt
  createdAt : required readInstant (field "created_at") = some c.createdAt
  updatedAt :
    defaulted none (nullable readInstant) (field "updated_at") = some c.updatedAt
  data : (field "data").getD (.object []) = c.data

/-- A contract that is read has each of its parts read. -/
theorem readFrom_of_ofFields {field : String → Option Json} {c : Contract}
    (h : ofFields field = some c) : ReadFrom field c := by
  obtain ⟨id, hid, h⟩ := Option.bind_eq_some_iff.mp h
  obtain ⟨slug, hslug, h⟩ := Option.bind_eq_some_iff.mp h
  obtain ⟨type, htype, h⟩ := Option.bind_eq_some_iff.mp h
  obtain ⟨version, hversion, h⟩ := Option.bind_eq_some_iff.mp h
  obtain ⟨name, hname, h⟩ := Option.bind_eq_some_iff.mp h
  obtain ⟨active, hactive, h⟩ := Option.bind_eq_some_iff.mp h
  obtain ⟨tags, htags, h⟩ := Option.bind_eq_some_iff.mp h
  obtain ⟨markers, hmarkers, h⟩ := Option.bind_eq_some_iff.mp h
  obtain ⟨requires, hrequires, h⟩ := Option.bind_eq_some_iff.mp h
  obtain ⟨capabilities, hcapabilities, h⟩ := Option.bind_eq_some_iff.mp h
  obtain ⟨links, hlinks, h⟩ := Option.bind_eq_some_iff.mp h
  obtain ⟨linkedAt, hlinkedAt, h⟩ := Option.bind_eq_some_iff.mp h
  obtain ⟨createdAt, hcreatedAt, h⟩ := Option.bind_eq_some_iff.mp h
  obtain ⟨updatedAt, hupdatedAt, h⟩ := Option.bind_eq_some_iff.mp h
  obtain rfl := Option.some.inj h
  exact ⟨hid, hslug, htype, hversion, hname, hactive, htags, hmarkers, hrequires,
    hcapabilities, hlinks, hlinkedAt, hcreatedAt, hupdatedAt, rfl⟩

theorem ReadFrom.ofFields_eq {field : String → Option Json} {c : Contract}
    (h : ReadFrom field c) : ofFields field = some c := by
  simp [ofFields, h.id, h.slug, h.type, h.version, h.name, h.active, h.tags, h.markers,
    h.requires, h.capabilities, h.links, h.linkedAt, h.createdAt, h.updatedAt, h.data]

/-- Fields that differ in the links alone, and read the same there, read the
    same. -/
theorem ofFields_congr {field other : String → Option Json}
    (hsame : ∀ key, key ≠ "links" → field key = other key)
    (hlinks : defaulted [] (valuesOf Json.asArray?) (field "links")
      = defaulted [] (valuesOf Json.asArray?) (other "links")) :
    ofFields field = ofFields other := by
  simp (disch := decide) only [ofFields, hsame, hlinks]

/-! ## Rows -/

theorem sorted_rowFields (c : Contract) : Dict.Sorted c.rowFields := by
  show List.Pairwise (· < ·) ["active", "capabilities", "created_at", "data", "id",
    "linked_at", "markers", "name", "requires", "slug", "tags", "type",
    "updated_at", "version"]
  decide +kernel

@[simp] theorem field?_id (c : Contract) :
    c.toRow.field? "id" = some (.string c.id) := rfl

@[simp] theorem field?_slug (c : Contract) :
    c.toRow.field? "slug" = some (.string c.slug) := rfl

@[simp] theorem field?_version (c : Contract) :
    c.toRow.field? "version" = some (.string c.version) := rfl

/-! ## Reading back -/

/-- What is read back is read from the fields of the row, told again. -/
theorem readFrom_of_reread {c d : Contract} (h : c.reread = some d) :
    ReadFrom (fun key => (Dict.find? c.rowFields key).bind
      (Json.retold (Json.maxDepth - 1))) d := by
  obtain ⟨j, hj, hd⟩ := Option.bind_eq_some_iff.mp h
  obtain ⟨fs, rfl, hfs⟩ := Json.parse?_object c.sorted_rowFields hj
  have hread := readFrom_of_ofFields (show ofFields (Dict.find? fs) = some d from hd)
  rwa [funext hfs] at hread

/-- A contract is read back with its identity. -/
structure SameIdentity (c d : Contract) : Prop where
  id : d.id = c.id
  slug : d.slug = c.slug
  type : d.type = c.type
  version : d.version = c.version

theorem sameIdentity_of_reread {c d : Contract} (h : c.reread = some d) :
    SameIdentity c d := by
  have hread := readFrom_of_reread h
  exact ⟨(Option.some.inj hread.id).symm, (Option.some.inj hread.slug).symm,
    (Option.some.inj hread.type).symm, (Option.some.inj hread.version).symm⟩

theorem links_of_reread {c d : Contract} (h : c.reread = some d) :
    d.links = [] :=
  (Option.some.inj (readFrom_of_reread h).links).symm

/-- Texts are read from the array of them. -/
theorem itemsOf_ofStrings (items : List String) :
    itemsOf Json.asString? (.ofStrings items) = some items := by
  rw [Json.ofStrings, itemsOf]
  induction items with
  | nil => rfl
  | cons item items ih => simp [ih, Json.asString?]

/-- A time that may be null is read back from its text. -/
theorem nullable_instant {u : Option Instant}
    (h : ∀ t, u = some t → Instant.parse? t.text = some t) :
    nullable readInstant (optional (fun t => .string t.text) u) = some u := by
  cases u with
  | none => rfl
  | some t =>
      rw [optional, nullable, readInstant, h t rfl, Option.map_some]
      exact nofun

section

variable {c : Contract} (hlinks : c.links = []) (hlinkedAt : c.linkedAt = [])
    (hcreatedAt : Instant.parse? c.createdAt.text = some c.createdAt)
    (hupdatedAt : ∀ t, c.updatedAt = some t → Instant.parse? t.text = some t)

include hlinks hlinkedAt hcreatedAt hupdatedAt

/-- A contract that was not linked is read from its row, if its times are. -/
theorem readFrom_rowFields : ReadFrom (Dict.find? c.rowFields) c := by
  constructor
  case name =>
    show nullable Json.asString? (optional .string c.name) = some c.name
    cases c.name <;> rfl
  case tags => exact itemsOf_ofStrings c.tags
  case markers => exact itemsOf_ofStrings c.markers
  case links => exact congrArg some hlinks.symm
  case linkedAt =>
    show valuesOf readInstant (.object (Dict.mapValues _ c.linkedAt)) = some c.linkedAt
    rw [hlinkedAt]
    rfl
  case createdAt =>
    have hfield : Dict.find? c.rowFields "created_at" = some (.string c.createdAt.text) :=
      rfl
    rw [hfield, required, Option.bind_some, readInstant, hcreatedAt]
  case updatedAt =>
    show nullable readInstant (optional _ c.updatedAt) = some c.updatedAt
    exact nullable_instant hupdatedAt
  all_goals rfl

/-- And it is read from its document, where it has no links either. -/
theorem ofJson?_toJson : ofJson? c.toJson = some c := by
  have hsame : ∀ key, key ≠ "links" →
      Dict.find? (Dict.insert c.rowFields "links" (linksJson c.links)) key
        = Dict.find? c.rowFields key :=
    fun key hkey => Dict.find?_insert_of_ne _ _ (Ne.symm hkey)
  -- the document is the row with its links, and there are none to read
  rw [← (readFrom_rowFields hlinks hlinkedAt hcreatedAt hupdatedAt).ofFields_eq]
  refine ofFields_congr hsame ?_
  rw [Dict.find?_insert_self, hlinks]
  rfl

end

/-- A contract that was not linked is read back as it is, if its documents and
    times are. -/
theorem reread_eq {c : Contract}
    (hrequires : Json.retold (Json.maxDepth - 1) (.array c.requires)
      = some (.array c.requires))
    (hcapabilities : Json.retold (Json.maxDepth - 1) (.array c.capabilities)
      = some (.array c.capabilities))
    (hdata : Json.retold (Json.maxDepth - 1) c.data = some c.data)
    (hcreatedAt : Instant.parse? c.createdAt.text = some c.createdAt)
    (hlinks : c.links = []) (hlinkedAt : c.linkedAt = [])
    (hupdatedAt : ∀ t, c.updatedAt = some t → Instant.parse? t.text = some t) :
    c.reread = some c := by
  have hstrings (items : List String) :
      Json.retold (Json.maxDepth - 1) (.ofStrings items) = some (.ofStrings items) :=
    congrArg (Option.map Json.array) (Json.retoldItems_strings _ items)
  have hname : Json.retold (Json.maxDepth - 1) (optional .string c.name)
      = some (optional .string c.name) := by
    cases c.name <;> rfl
  have htime : Json.retold (Json.maxDepth - 1)
      (optional (fun t => .string t.text) c.updatedAt)
        = some (optional (fun t => .string t.text) c.updatedAt) := by
    cases c.updatedAt <;> rfl
  have hnothing : Json.retold (Json.maxDepth - 1) (.object []) = some (.object []) := rfl
  have hstring (s : String) :
      Json.retold (Json.maxDepth - 1) (.string s) = some (.string s) := rfl
  have hparse : Json.parse? c.toRow.render = some c.toRow := by
    rw [Json.parse?_render]
    refine Json.retold_object_eq c.sorted_rowFields ?_
    show ∀ p ∈ c.rowFields, Json.retold (Json.maxDepth - 1) p.2 = some p.2
    rw [rowFields, hlinkedAt]
    simp only [List.forall_mem_cons, hrequires, hcapabilities, hdata, hstrings, hname,
      htime, hstring, true_and]
    exact ⟨rfl, hnothing, nofun⟩
  rw [reread, hparse, Option.bind_some, toRow, ofJson?]
  exact (readFrom_rowFields hlinks hlinkedAt hcreatedAt hupdatedAt).ofFields_eq

end Contract

end LinkedContracts
