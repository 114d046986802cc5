import LinkedContracts.Proofs.Patch.Partial

/-! # What a patch keeps

    Every patch keeps the properties that patches do not change: an operation
    with a path into one of them is passed over, and any other writes
    elsewhere.  More generally it keeps the properties that none of its
    operations names.

    A document without some of its properties is patched as the whole document
    is.  What the part has in the end the whole has too, and of what was left
    out the whole keeps whatever no operation names. -/

namespace LinkedContracts

namespace PatchOperation

variable {op : PatchOperation} {path key : String}

/-- The paths that an operation gives. -/
def pointers : PatchOperation → List String
  | add p _ | remove p | replace p _ | test p _ => [p]
  | move s p | copy s p => [s, p]

/-- Whether the first token of a path that an operation gives is a property. -/
def Names (op : PatchOperation) (key : String) : Prop :=
  ∃ path ∈ op.pointers, (Pointer.parse? path).bind List.head? = some key

instance (op : PatchOperation) (key : String) : Decidable (op.Names key) :=
  inferInstanceAs (Decidable (∃ path ∈ op.pointers, _ = some key))

theorem mem_pointers_of_written (h : path ∈ op.written) : path ∈ op.pointers := by
  cases op with
  | copy source target => exact List.mem_cons_of_mem _ h
  | test => cases h
  | _ => exact h

/-- An operation that touches a property names it. -/
theorem Touches.names (h : op.Touches [key]) : op.Names key := by
  obtain ⟨-, path, hpath, ts, hparse, hne, hmeets⟩ := h
  obtain ⟨rest, rfl⟩ := Json.eq_cons_of_meets hne hmeets
  exact ⟨path, mem_pointers_of_written hpath, by rw [hparse]; rfl⟩

theorem isImmutable_of_written (h : path ∈ op.written)
    (hpath : Patch.isImmutable path = true) : Patch.touchesImmutable op = true := by
  cases op with
  | move source target =>
      rcases List.mem_cons.mp h with rfl | h
      · simp [Patch.touchesImmutable, hpath]
      · obtain rfl := List.mem_singleton.mp h
        simp [Patch.touchesImmutable, PatchOperation.path, hpath]
  | test => cases h
  | _ =>
      obtain rfl := List.mem_singleton.mp h
      simp [Patch.touchesImmutable, PatchOperation.path, hpath]

/-- No operation touches a property that patches do not change. -/
theorem not_touches_immutable (hkey : key ∈ Patch.immutable) : ¬op.Touches [key] := by
  rintro ⟨hskip, path, hpath, ts, hparse, hne, hmeets⟩
  obtain ⟨rest, rfl⟩ := Json.eq_cons_of_meets hne hmeets
  have himmutable : Patch.isImmutable path = true := by
    simp [Patch.isImmutable, hparse, hkey]
  rw [isImmutable_of_written hpath himmutable] at hskip
  cases hskip

end PatchOperation

namespace Patch

variable {fields changed : Dict Json} {operations : List PatchOperation} {result : Json}

/-- A patch keeps a property that none of its operations touches. -/
theorem find?_apply {key : String}
    (h : apply (.object fields) operations = .ok (.object changed))
    (hkey : ∀ op ∈ operations, ¬op.Touches [key]) :
    Dict.find? changed key = Dict.find? fields key := by
  have hpart := part?_steps h hkey
  rwa [Json.part?_singleton, Json.part?_singleton] at hpart

/-! ## Properties that patches do not change -/

/-- After a patch the properties that patches do not change are there if they
    were before, and are what they were. -/
theorem immutable_of_apply (h : apply (.object fields) operations = .ok result) :
    ∃ changed, result = .object changed
      ∧ ∀ key ∈ ["id", "links", "linked_at", "created_at", "updated_at"],
        Dict.find? changed key = Dict.find? fields key := by
  obtain ⟨changed, rfl⟩ := object_steps h
  refine ⟨changed, rfl, ?_⟩
  intro key hkey
  have himmutable : key ∈ immutable := hkey
  exact find?_apply h fun op _ => PatchOperation.not_touches_immutable himmutable

/-- A contract with an id and a time, but without links. -/
def dated : Dict Json :=
  [("created_at", .string "2020-01-01T00:00:00Z"), ("data", .object []),
    ("id", .string "card"), ("slug", .string "card")]

/-- Attempts on the id, on links that are not there and on the time, by moves,
    below the properties and with escapes, and a copy of the id. -/
def attempts : List PatchOperation :=
  [.replace "/id" (.string "other"), .move "/data" "/links",
    .add "/linked_at/is~1was" .null, .move "/created_at" "/data/when",
    .remove "/updated_at", .copy "/id" "/data/i~0d", .replace "/slug" (.string "renamed")]

theorem immutable_of_attempts :
    ∃ result, apply (.object dated) attempts = .ok result
      ∧ ∃ changed, result = .object changed
        ∧ ∀ key ∈ ["id", "links", "linked_at", "created_at", "updated_at"],
          Dict.find? changed key = Dict.find? dated key := by
  have happly : apply (.object dated) attempts = .ok (.object
      [("created_at", .string "2020-01-01T00:00:00Z"),
        ("data", .object [("i~d", .string "card")]), ("id", .string "card"),
        ("slug", .string "renamed")]) := rfl
  exact ⟨_, happly, immutable_of_apply happly⟩

/-! ## Properties that were left out -/

/-- A document without the properties that are hidden is part of it. -/
theorem partOf_filter (hfields : fields.Sorted) (hidden : String → Bool) :
    PartOf (hidden · = true) (fields.filter fun p => !hidden p.1) fields where
  part_sorted := hfields.filter _
  whole_sorted := hfields
  agree key := by
    rw [hfields.find?_filter]
    by_cases hkey : hidden key = true
    · right
      exact ⟨hkey, by simp [hkey]⟩
    · left
      cases Dict.find? fields key <;> simp [hkey]

/-- A patch that applies to a document without some properties applies to the
    whole document.  Every other property comes out the same of both.  A
    property that was left out is the same if the part has it in the end, and
    is kept if no operation names it. -/
theorem apply_filter (hfields : fields.Sorted) (hidden : String → Bool) {seen : Json}
    (h : apply (.object (fields.filter fun p => !hidden p.1)) operations = .ok seen) :
    ∃ part whole, seen = .object part
      ∧ apply (.object fields) operations = .ok (.object whole)
      ∧ (∀ key, hidden key = false → Dict.find? whole key = Dict.find? part key)
      ∧ (∀ key v, hidden key = true → Dict.find? part key = some v →
        Dict.find? whole key = some v)
      ∧ (∀ key, hidden key = true → (∀ op ∈ operations, ¬op.Names key) →
        Dict.find? whole key = Dict.find? fields key) := by
  -- the run on the part is followed by a run on the whole, operation by operation
  obtain ⟨part, whole, rfl, hwhole, hpart⟩ := apply_whole (partOf_filter hfields hidden) h
  refine ⟨part, whole, rfl, hwhole, ?_, ?_, ?_⟩
  · intro key hkey
    rcases hpart.agree key with heq | ⟨hhidden, -⟩
    · exact heq.symm
    · rw [hkey] at hhidden
      cases hhidden
  · intro key v _ hv
    exact hpart.find?_eq_some hv
  · intro key _ hnames
    exact find?_apply hwhole fun op hop htouches => hnames op hop htouches.names

/-- A contract with a secret and a note. -/
def annotated : Dict Json :=
  [("data", .object []), ("name", .string "Card"), ("note", .string "kept"),
    ("secret", .string "old"), ("slug", .string "card")]

/-- A secret added, copied and taken away, and put back from the copy. -/
def confide : List PatchOperation :=
  [.add "/secret" (.string "new"), .copy "/secret" "/data/was",
    .test "/secret" (.string "new"), .remove "/secret", .move "/data/was" "/secret"]

/-- A secret that was left out, which the whole has already, is the one that was
    added to the part; the note that was left out is kept. -/
theorem apply_filter_confide :
    let hidden (key : String) := key == "note" || key == "secret"
    Dict.Sorted annotated ∧ ∃ part whole,
      apply (.object (annotated.filter fun p => !hidden p.1)) confide
          = .ok (.object part)
        ∧ apply (.object annotated) confide = .ok (.object whole)
        ∧ Dict.find? whole "name" = Dict.find? part "name"
        ∧ Dict.find? part "secret" = some (.string "new")
        ∧ Dict.find? whole "secret" = some (.string "new")
        ∧ Dict.find? whole "note" = Dict.find? annotated "note" := by
  intro hidden
  have hsorted : Dict.Sorted annotated := by decide
  have happly : apply (.object (annotated.filter fun p => !hidden p.1)) confide
      = .ok (.object [("data", .object []), ("name", .string "Card"),
        ("secret", .string "new"), ("slug", .string "card")]) := rfl
  obtain ⟨part, whole, hpart, hwhole, hsame, hadded, hkept⟩ :=
    apply_filter hsorted hidden happly
  obtain rfl := Json.object.inj hpart
  exact ⟨hsorted, _, whole, happly, hwhole, hsame "name" rfl, rfl,
    hadded "secret" _ rfl rfl, hkept "note" rfl (by decide)⟩

end Patch

end LinkedContracts
