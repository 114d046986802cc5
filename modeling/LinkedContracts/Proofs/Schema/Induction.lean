import LinkedContracts.Schema

/-! # Induction over schemas

    Schemas nest through lists, dictionaries and optional keywords.  The
    parts of a schema are the schemas its keywords hold, whichever way; a
    property that passes from the parts to the whole holds of every
    schema. -/

namespace LinkedContracts

namespace Keywords

variable {σ : Type}

/-- The schemas of a keyword that holds named ones. -/
def namedParts (fields : Option (List (String × σ))) : List σ :=
  (fields.getD []).map (·.2)

/-- The schemas directly inside a schema. -/
def parts (kw : Keywords σ) : List σ :=
  namedParts kw.properties ++ kw.additionalProperties.toList
    ++ kw.allOf.getD [] ++ kw.anyOf.getD [] ++ kw.not.toList
    ++ kw.items.toList ++ kw.contains.toList ++ namedParts kw.links

end Keywords

namespace Schema

private theorem sizeOf_lt_of_mem_option [SizeOf α] {a : α} {o : Option α}
    (h : a ∈ o.toList) : sizeOf a < sizeOf o := by
  obtain rfl : o = some a := by simpa using h
  simp

private theorem sizeOf_lt_of_mem_getD [SizeOf α] {a : α}
    {o : Option (List α)} (h : a ∈ o.getD []) : sizeOf a < sizeOf o := by
  cases o with
  | none => simp at h
  | some l =>
      have : sizeOf a < sizeOf l := List.sizeOf_lt_of_mem h
      simp only [Option.some.sizeOf_spec]
      omega

private theorem sizeOf_lt_of_mem_named [SizeOf α] {a : α}
    {o : Option (List (String × α))} (h : a ∈ Keywords.namedParts o) :
    sizeOf a < sizeOf o := by
  obtain ⟨p, hp, rfl⟩ := List.mem_map.mp h
  have := sizeOf_lt_of_mem_getD hp
  have : sizeOf p.2 < sizeOf p := by
    cases p
    simp only [Prod.mk.sizeOf_spec]
    omega
  omega

/-- A part is smaller than the schema it is in. -/
theorem sizeOf_part_lt {kw : Keywords Schema} {s : Schema}
    (h : s ∈ kw.parts) : sizeOf s < sizeOf (Schema.node kw) := by
  cases kw
  simp only [Keywords.parts, List.mem_append, or_assoc] at h
  simp only [Schema.node.sizeOf_spec, Keywords.mk.sizeOf_spec]
  rcases h with h | h | h | h | h | h | h | h
  · have := sizeOf_lt_of_mem_named h; omega
  · have := sizeOf_lt_of_mem_option h; omega
  · have := sizeOf_lt_of_mem_getD h; omega
  · have := sizeOf_lt_of_mem_getD h; omega
  · have := sizeOf_lt_of_mem_option h; omega
  · have := sizeOf_lt_of_mem_option h; omega
  · have := sizeOf_lt_of_mem_option h; omega
  · have := sizeOf_lt_of_mem_named h; omega

/-- What passes from the parts of a schema to the schema holds of all
    schemas. -/
theorem induct {P : Schema → Prop} (bool : ∀ b, P (.bool b))
    (node : ∀ kw, (∀ s ∈ kw.parts, P s) → P (.node kw)) : ∀ s, P s
  | .bool b => bool b
  | .node kw => node kw fun s _ => induct bool node s
termination_by s => sizeOf s
decreasing_by exact sizeOf_part_lt ‹_›

end Schema

end LinkedContracts
