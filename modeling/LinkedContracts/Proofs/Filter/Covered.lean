import LinkedContracts.Proofs.Filter.Definite

/-! # Filters covered by the value they are about

    A filter about the value at a path is covered if it is definite wherever
    there is such a value, and if every filter below a quantifier or a link
    in it is definite for whatever is bound there.

    Tests of the value are covered, and so is a quantifier or a link over a
    filter that is covered by what it binds.  A filter about a longer path is
    covered by its own value only, so it stands under a test that there is
    one. -/

namespace LinkedContracts

namespace Filter

mutual

/-- The filters below quantifiers and links, each with the name that is bound
    for it. -/
def inner : Filter → List (String × Filter)
  | conj fs | disj fs => innerAll fs
  | neg f => inner f
  | each _ _ _ name f | linked _ _ name f => (name, f) :: inner f
  | always | never | present _ | typeIs _ _ | equals _ _ | oneOf _ _
  | pattern _ _ | bound _ _ _ | length _ _ _ | itemCount _ _ _
  | fullText _ _ => []

/-- The filters below quantifiers and links in several filters. -/
def innerAll : List Filter → List (String × Filter)
  | [] => []
  | f :: rest => inner f ++ innerAll rest

end

theorem mem_innerAll {fs : List Filter} {s : String × Filter} :
    s ∈ innerAll fs ↔ ∃ f ∈ fs, s ∈ f.inner := by
  induction fs with
  | nil => simp [innerAll]
  | cons f rest ih => simp [innerAll, ih]

/-- A filter about the value at a path is definite where there is one, and
    below its quantifiers and links everywhere. -/
structure Covered [TextLibrary] (links : Json → String → List Json) (path : ValuePath)
    (f : Filter) : Prop where
  here : ∀ {b v}, Bindings.resolve b path = some v → f.Definite links b
  below : ∀ s ∈ f.inner, ∀ (b : Bindings) (v : Json),
    s.2.Definite links ((s.1, v) :: b)

namespace Covered

variable {links : Json → String → List Json} {path : ValuePath}

/-! ## Tests -/

section

variable [TextLibrary]

theorem always : Covered links path .always := ⟨fun _ => definite_always, nofun⟩

theorem never : Covered links path .never := ⟨fun _ => definite_never, nofun⟩

/-- The test that there is a value covers itself, at whatever path. -/
theorem present (p : ValuePath) : Covered links path (.present p) :=
  ⟨fun _ => definite_present, nofun⟩

theorem typeIs (ts : List JsonType) : Covered links path (.typeIs path ts) :=
  ⟨fun hv => definite_typeIs hv ts, nofun⟩

theorem equals (v : Json) : Covered links path (.equals path v) :=
  ⟨fun hv => definite_equals hv v, nofun⟩

theorem oneOf (vs : List Json) : Covered links path (.oneOf path vs) :=
  ⟨fun hv => definite_oneOf hv vs, nofun⟩

theorem pattern {source : String} {ignoreCase : Bool} {re : Pattern}
    (hre : Pattern.ofSource? source ignoreCase = some re) :
    Covered links path (.pattern path re) :=
  ⟨fun hv => definite_pattern hv hre, nofun⟩

theorem bound (op : Comparison) (x : Binary64) :
    Covered links path (.bound path op x) :=
  ⟨fun hv => definite_bound hv op x, nofun⟩

theorem length (op : Comparison) (n : Nat) :
    Covered links path (.length path op n) :=
  ⟨fun hv => definite_length hv op n, nofun⟩

theorem itemCount (op : Comparison) (n : Nat) :
    Covered links path (.itemCount path op n) :=
  ⟨fun hv => definite_itemCount hv op n, nofun⟩

theorem fullText (term : String) : Covered links path (.fullText path term) :=
  ⟨fun hv => definite_fullText hv term, nofun⟩

end

/-! ## Connectives -/

section Connectives

variable [TextLibrary]
variable {fs : List Filter} (h : ∀ f ∈ fs, Covered links path f)

include h

theorem belowAll : ∀ s ∈ innerAll fs, ∀ (b : Bindings) (v : Json),
    s.2.Definite links ((s.1, v) :: b) := by
  intro s hs
  obtain ⟨f, hf, hs⟩ := mem_innerAll.mp hs
  exact (h f hf).below s hs

theorem conj : Covered links path (.conj fs) :=
  ⟨fun hv => definite_conj fun f hf => (h f hf).here hv, belowAll h⟩

theorem disj : Covered links path (.disj fs) :=
  ⟨fun hv => definite_disj fun f hf => (h f hf).here hv, belowAll h⟩

/-- Filters that always hold may be left out. -/
theorem ofAll : Covered links path (.ofAll fs) := by
  have kept : ∀ f ∈ fs.filter (fun f => !f.isAlways), Covered links path f :=
    fun f hf => h f (List.mem_filter.mp hf |>.1)
  rw [Filter.ofAll]
  split
  · exact always
  · next f heq => exact kept f (by simp [heq])
  · next => exact conj kept

end Connectives

variable [TextLibrary]

theorem neg {f : Filter} (h : Covered links path f) :
    Covered links path (.neg f) :=
  ⟨fun hv => definite_neg (h.here hv), h.below⟩

/-- A filter about another path is covered under the test that there is a
    value at that path. -/
theorem unlessAbsent {p : ValuePath} {f : Filter} (h : Covered links p f) :
    Covered links path (.disj [.neg (.present p), f]) := by
  refine ⟨fun _ => definite_unless definite_present fun hp => ?_, ?_⟩
  · rw [answer_present, Option.any_true] at hp
    exact h.here (Option.some_get hp).symm
  · intro s hs
    exact h.below s (by simpa [inner, innerAll] using hs)

/-! ## Quantifiers and links -/

/-- What a member covers is covered by the value it is a member of. -/
theorem each (p : ValuePath) (members : Members) (quantifier : Quantifier)
    {name : String} {f : Filter} (h : Covered links (.member name) f) :
    Covered links path (.each p members quantifier name f) := by
  have member (b : Bindings) (v : Json) : f.Definite links ((name, v) :: b) :=
    h.here (Bindings.resolve_member name v b)
  refine ⟨fun _ => definite_each p members quantifier _ (member _), ?_⟩
  exact List.forall_mem_cons.mpr ⟨member, h.below⟩

/-- What a linked contract covers is covered by any value. -/
theorem linked (parent linkType : String) {joined : String} {f : Filter}
    (h : Covered links (.row joined) f) :
    Covered links path (.linked parent linkType joined f) := by
  have row (b : Bindings) (c : Json) : f.Definite links ((joined, c) :: b) :=
    h.here (Bindings.resolve_row joined c b)
  refine ⟨fun _ => definite_linked parent linkType _ (row _), ?_⟩
  exact List.forall_mem_cons.mpr ⟨row, h.below⟩

end Covered

end Filter

end LinkedContracts
