import LinkedContracts.Proofs.Compile.Alike
import LinkedContracts.Proofs.Query.Attached

/-! # Results of images

    An image is a contract with linked contracts under `links`, which a row
    has not.  A query that compares no contract as a whole finds the same of
    an image and of the row, so that both have the same linked contracts
    attached.  The results are the same where these take the place of the
    links of the image, or where the selection does not take the field; in
    any other case the links of the image stay in its result. -/

namespace LinkedContracts

namespace Query

open Join

variable {tables : Tables} {select : Selection} {schema : Schema}
  {options : QueryOptions} {q : Query} {links : Json → String → List Json}
  {c d : Json}

/-! ## Found alike -/

/-- A query that compares no contract as a whole finds the same of contracts
    that are alike. -/
theorem outcome_alike [TextLibrary] (h : compile tables select schema options = .ok q)
    (hweighs : ¬schema.Weighs) (hcd : Alike links c d) :
    q.filter.outcome links [(q.tables.contracts, c)]
      = q.filter.outcome links [(q.tables.contracts, d)] := by
  obtain ⟨f, plan, hrun, -, rfl⟩ := compile_eq_ok.mp h
  obtain ⟨_, _, hget, hrun⟩ := Stateful.bind_ok hrun
  obtain ⟨rfl, rfl⟩ := Prod.mk.inj hget |>.imp_left Except.ok.inj
  exact (Schema.yields schema hrun).outcome_alike hcd [] (.inr ⟨_, rfl⟩)
    (fun _ hs => absurd hs hweighs) f List.mem_cons_self

/-! ## Attached alike -/

theorem entriesOf_congr {row other : Json} {joins : List Join}
    (h : ∀ j ∈ joins, itemsAt row j.name = itemsAt other j.name) (parent : String) :
    entriesOf row parent joins = entriesOf other parent joins := by
  have hall : (joins.flatMap fun j => (itemsAt row j.name).filterMap fun e =>
        (entryId? parent e).map fun id => (j, id, e))
      = joins.flatMap fun j => (itemsAt other j.name).filterMap fun e =>
        (entryId? parent e).map fun id => (j, id, e) :=
    List.flatMap_congr fun j hj => by rw [h j hj]
  rw [entriesOf, entriesOf, hall]

mutual

/-- What is attached depends on the columns of joins only. -/
theorem attach_congr {row other : Json}
    (hrows : ∀ way, itemsAt row (nameOf way) = itemsAt other (nameOf way)) :
    ∀ (select : Selection) {joins : Dict (List Join)} {way : List (String × Nat)}
      (parent : String), TreeStands joins way →
      attach select joins row parent = attach select joins other parent
  | ⟨_, links⟩, _, _, parent, hstands => by
      rw [attach, attach, attachAll_congr hrows links parent hstands]

theorem attachAll_congr {row other : Json}
    (hrows : ∀ way, itemsAt row (nameOf way) = itemsAt other (nameOf way)) :
    ∀ (links : List (String × Selection)) {joins : Dict (List Join)}
      {way : List (String × Nat)} (parent : String), TreeStands joins way →
      attachAll links joins row parent = attachAll links joins other parent
  | [], _, _, _, _ => rfl
  | (linkType, select) :: rest, joins, way, parent, hstands => by
      have hjoins : ∀ j ∈ (Dict.find? joins linkType).getD [],
          ∃ way, j.name = nameOf way ∧ TreeStands j.nested way := by
        intro j hj
        cases hjs : Dict.find? joins linkType with
        | none => simp [hjs] at hj
        | some js =>
            rw [hjs, Option.getD_some] at hj
            obtain ⟨-, way, hway⟩ := standsAt_of_mem
              ((treeStands_iff.mp hstands).2 _ (Dict.mem_of_find? hjs)) hj
            exact ⟨way, standsAt_iff.mp hway⟩
      have hentries : entriesOf row parent ((Dict.find? joins linkType).getD [])
          = entriesOf other parent ((Dict.find? joins linkType).getD []) := by
        refine entriesOf_congr (fun j hj => ?_) parent
        obtain ⟨way, hname, -⟩ := hjoins j hj
        rw [hname, hrows]
      rw [attachAll, attachAll, attachAll_congr hrows rest parent hstands,
        ← hentries]
      congr 3
      refine List.map_congr_left fun x hx => ?_
      obtain ⟨j, id, e⟩ := x
      obtain ⟨way, -, hnested⟩ := hjoins j (mem_entriesOf hx).1
      dsimp only
      rw [attach_congr hrows select id hnested]

end

end Query

/-! ## Selected of an image -/

/-- A document with linked contracts under `links`. -/
def Json.showing (fields : Dict Json) (shown : Json) : Json :=
  .object (Dict.insert fields "links" shown)

namespace Selection

variable {select : Selection} {fields : Dict Json} {shown : Json}

end Selection

/-! ## Results -/

namespace Query

variable {tables : Tables} {select : Selection} {schema : Schema}
  {options : QueryOptions} {q : Query} {links : Json → String → List Json}
  {fields : Dict Json} {shown : Json}

theorem alike_showing (h : links (.showing fields shown) = links (.object fields)) :
    Alike links (.showing fields shown) (.object fields) where
  columns key hkey := by
    have hlinks : "links" ≠ key := by
      rintro rfl
      exact absurd hkey (by decide)
    show (Dict.find? (Dict.insert fields "links" shown) key).getD .null = _
    rw [Dict.find?_insert_of_ne fields shown hlinks]
    rfl
  links := h

variable [TextLibrary]

/-- A query that compares no contract as a whole holds of an image where the
    row meets its schema. -/
theorem evaluate_showing (h : compile tables select schema options = .ok q)
    (hweighs : ¬schema.Weighs)
    (hlinks : links (.showing fields shown) = links (.object fields)) :
    q.evaluate (.showing fields shown) (.known links)
      = .ok (if schema.meets links .contract (.object fields) then
          some (q.resultOf links (.showing fields shown)) else none) := by
  have hanswer : q.filter.answer links [(q.tables.contracts, .showing fields shown)]
      = q.filter.answer links [(q.tables.contracts, .object fields)] := by
    rw [Filter.answer, Filter.answer,
      outcome_alike h hweighs (alike_showing hlinks)]
  obtain ⟨f, plan, hrun, -, rfl⟩ := compile_eq_ok.mp h
  rw [evaluate_known, hanswer, Schema.answer_compileRow hrun]

end Query

end LinkedContracts
