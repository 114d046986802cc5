import LinkedContracts.Proofs.Compile.JoinNames
import LinkedContracts.Proofs.Compile.Meaning
import LinkedContracts.Store.Run

/-! # Queries run on the store

    A query gives a page of the contracts that meet its schema, in its order.
    Without a selection each result is a whole contract. -/

namespace LinkedContracts

/-- The part of a list that a page shows. -/
def page {α : Type} (skip : Nat) (limit : Option Nat) (l : List α) : List α :=
  match limit with
  | none => l.drop skip
  | some n => (l.drop skip).take n

theorem page_map {α β : Type} (f : α → β) (skip : Nat) (limit : Option Nat)
    (l : List α) : page skip limit (l.map f) = (page skip limit l).map f := by
  cases limit <;> simp [page]

theorem page_none_left {α : Type} (skip : Nat) (l : List α) :
    page skip (some 0) l = [] := by
  simp [page]

theorem page_skip {α : Type} (skip : Nat) (limit : Option Nat) (a : α)
    (l : List α) : page (skip + 1) limit (a :: l) = page skip limit l := by
  cases limit <;> simp [page]

theorem page_take {α : Type} {limit : Option Nat} (h : limit ≠ some 0) (a : α)
    (l : List α) : page 0 limit (a :: l) = a :: page 0 (limit.map (· - 1)) l := by
  match limit with
  | none => simp [page]
  | some 0 => exact absurd rfl h
  | some (n + 1) => simp [page]

theorem mem_of_mem_page {α : Type} {skip : Nat} {limit : Option Nat} {a : α}
    {l : List α} (h : a ∈ page skip limit l) : a ∈ l := by
  cases limit with
  | none => exact List.mem_of_mem_drop h
  | some n => exact List.mem_of_mem_drop (List.mem_of_mem_take h)

namespace Store

/-- The rows linked to a row under a name. -/
def rowsLinked (s : Store) (parent : Json) (name : String) : List Json :=
  match parent.stringField? "id" with
  | some id => (s.linked id name).map Contract.toRow
  | none => []

theorem linkSource_eq (s : Store) : s.linkSource = .known s.rowsLinked := rfl

end Store

namespace Query

variable {links : Json → String → List Json}

/-- The row of a contract that meets the filter of a query. -/
def rowIn (q : Query) (links : Json → String → List Json) (c : Json) : Json :=
  q.rowOf c (q.filter.outcome links [(q.tables.contracts, c)]).found

theorem evaluateRow_known (q : Query) (c : Json) :
    q.evaluateRow c (.known links)
      = .ok (if q.filter.answer links [(q.tables.contracts, c)] then
          some (q.rowIn links c) else none) := by
  rw [evaluateRow, Filter.matchContract_known]
  cases q.filter.answer links [(q.tables.contracts, c)] <;> rfl

theorem pageRows_cons {q : Query} {c : Json} {rest : List Json} {skip : Nat}
    {limit : Option Nat} (hlimit : limit ≠ some 0) :
    Store.pageRows q (.known links) (c :: rest) skip limit
      = (q.evaluateRow c (.known links)).bind fun row => match row with
        | none => Store.pageRows q (.known links) rest skip limit
        | some row =>
            if 0 < skip then Store.pageRows q (.known links) rest (skip - 1) limit
            else (Store.pageRows q (.known links) rest 0
              (limit.map (· - 1))).bind fun rows => .ok (row :: rows) := by
  cases limit with
  | none => rfl
  | some n =>
      cases n with
      | zero => exact absurd rfl hlimit
      | succ n => rfl

/-- The rows of a page are those of the contracts that meet the filter. -/
theorem pageRows_known (q : Query) (cs : List Json) (skip : Nat)
    (limit : Option Nat) :
    Store.pageRows q (.known links) cs skip limit
      = .ok (page skip limit ((cs.filter fun c =>
          q.filter.answer links [(q.tables.contracts, c)]).map
            (q.rowIn links))) := by
  induction cs generalizing skip limit with
  | nil => cases limit <;> simp [Store.pageRows, page]
  | cons c rest ih =>
      by_cases hlimit : limit = some 0
      · subst hlimit
        rw [page_none_left]
        rfl
      rw [pageRows_cons hlimit, evaluateRow_known]
      cases h : q.filter.answer links [(q.tables.contracts, c)] with
      | false =>
          rw [List.filter_cons_of_neg (by simp [h])]
          exact ih skip limit
      | true =>
          rw [List.filter_cons_of_pos (by simp [h]), List.map_cons]
          cases skip with
          | zero =>
              rw [page_take hlimit]
              simp [Except.bind, ih]
          | succ skip =>
              rw [page_skip]
              simp [Except.bind, ih]

/-! ## Results -/

/-- The result of a contract that meets the filter of a query. -/
def resultOf (q : Query) (links : Json → String → List Json) (c : Json) : Json :=
  q.reshape (q.rowIn links c)

theorem evaluate_known (q : Query) (c : Json) :
    q.evaluate c (.known links)
      = .ok (if q.filter.answer links [(q.tables.contracts, c)] then
          some (q.resultOf links c) else none) := by
  rw [evaluate, evaluateRow_known]
  cases q.filter.answer links [(q.tables.contracts, c)] <;> rfl

/-- The columns that every row has are not those of joins. -/
theorem find?_columns [TextLibrary] {tables : Tables} {select : Selection} {schema : Schema}
    {options : QueryOptions} {q : Query}
    (h : compile tables select schema options = .ok q) {c : Json}
    {found : List LinkMatch} {key : String}
    (hkey : key.toList.head? ≠ some 'j') :
    (q.rowOf c found).field? key
      = Dict.find? [("contract", q.select.project c),
          ("id", (c.field? "id").getD .null)] key := by
  have others : ∀ p ∈ q.selectedJoins.map (fun x =>
      (x.1.name, entries found x.1 x.2)), p.1 ≠ key := by
    intro p hp
    obtain ⟨x, hx, rfl⟩ := List.mem_map.mp hp
    obtain ⟨way, hway⟩ := named_of_compile h x hx
    show x.1.name ≠ key
    rw [hway]
    exact nameOf_ne hkey
  show Dict.find? (List.foldl _ (Dict.insert (Dict.insert [] "id" _) "contract"
    (q.select.project c)) _) key = _
  rw [Dict.find?_foldl_insert others]
  rfl

/-- The result of a contract is what is selected of it, with the linked
    contracts where links are selected. -/
theorem resultOf_eq [TextLibrary] {tables : Tables} {select : Selection} {schema : Schema}
    {options : QueryOptions} {q : Query}
    (h : compile tables select schema options = .ok q) (c : Json) :
    q.resultOf links c = if q.select.links.isEmpty then q.select.project c
      else withLinks (q.select.project c)
        (attach q.select q.joins (q.rowIn links c) (Filter.rowId c)) := by
  have hcontract : (q.rowIn links c).field? "contract"
      = some (q.select.project c) := find?_columns h (by decide)
  have hid : (q.rowIn links c).field? "id"
      = some ((c.field? "id").getD .null) := find?_columns h (by decide)
  have hparent : ((q.rowIn links c).stringField? "id").getD ""
      = Filter.rowId c := by
    rw [Json.stringField?, hid, Filter.rowId, Json.stringField?]
    cases c.field? "id" <;> rfl
  simp only [resultOf, reshape, hcontract, hparent, Option.getD_some]

section

variable [TextLibrary]
variable {tables : Tables} {select : Selection} {schema : Schema}
  {options : QueryOptions} {q : Query}
  (h : compile tables select schema options = .ok q) (s : Store)

include h

/-- The rows of a query are those of the contracts of its page that meet its
    schema. -/
theorem run_eq :
    s.run q = .ok ((page (options.skip.getD 0) options.limit
        ((sort options (s.contracts.map Contract.toRow)).filter
          (schema.meets s.rowsLinked .contract))).map (q.rowIn s.rowsLinked)) := by
  obtain ⟨f, plan, hrun, -, rfl⟩ := compile_eq_ok.mp h
  have hfilter := Schema.answer_compileRow hrun s.rowsLinked
  rw [Store.run, Store.linkSource_eq, pageRows_known]
  simp only [hfilter, page_map]

/-- A query returns the results of these contracts. -/
theorem run_results :
    (s.run q).map (·.map q.reshape)
      = .ok ((page (options.skip.getD 0) options.limit
          ((sort options (s.contracts.map Contract.toRow)).filter
            (schema.meets s.rowsLinked .contract))).map
              (q.resultOf s.rowsLinked)) := by
  rw [run_eq h, Except.map, List.map_map]
  rfl

end

/-! ## Whole contracts -/

variable [TextLibrary]

/-- Without a selection the result of a contract is the contract. -/
theorem resultOf_whole {tables : Tables} {schema : Schema}
    {options : QueryOptions} {q : Query}
    (h : compile tables .empty schema options = .ok q) (c : Json) :
    q.resultOf links c = c := by
  have hselect : q.select = .empty := by
    obtain ⟨f, plan, -, -, rfl⟩ := compile_eq_ok.mp h
    rfl
  rw [resultOf_eq h, hselect]
  cases c <;> rfl

/-- A query without a selection returns the contracts of its page that meet
    its schema. -/
theorem run_whole {tables : Tables} {schema : Schema} {options : QueryOptions}
    {q : Query} (h : compile tables .empty schema options = .ok q) (s : Store) :
    (s.run q).map (·.map q.reshape)
      = .ok (page (options.skip.getD 0) options.limit
          ((sort options (s.contracts.map Contract.toRow)).filter
            (schema.meets s.rowsLinked .contract))) := by
  rw [run_results h, funext (resultOf_whole h), List.map_id']

end Query

end LinkedContracts
