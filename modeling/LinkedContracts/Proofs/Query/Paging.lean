import LinkedContracts.Proofs.Query.Created
import LinkedContracts.Proofs.Query.Run

/-! # Page after page

    A page of a query is a slice of all its rows.  Reading pages of one size
    from the start, one after another up to the first empty one, gives every
    row once and in order.

    That the pages of one reading fit together takes that skipping counts the
    rows that were found, not the contracts looked at, and that neither the
    order nor what is found depends on the page. -/

namespace LinkedContracts

variable {tables : Tables} {select : Selection} {schema : Schema} {options : QueryOptions}
  {q : Query}

/-- Options for another page. -/
def QueryOptions.onPage (options : QueryOptions) (skip limit : Option Nat) : QueryOptions :=
  { options with skip, limit }

/-- A query for another page. -/
def Query.onPage (q : Query) (skip limit : Option Nat) : Query :=
  { q with options := q.options.onPage skip limit }

/-- A schema is compiled for one page as for another. -/
theorem Query.compile_onPage [TextLibrary] (h : compile tables select schema options = .ok q)
    (skip : Option Nat) {limit : Option Nat} (hlimit : limit ≠ some 0) :
    compile tables select schema (options.onPage skip limit) = .ok (q.onPage skip limit) := by
  obtain ⟨f, plan, hrun, -, rfl⟩ := compile_eq_ok.mp h
  exact compile_eq_ok.mpr ⟨f, plan, hrun, hlimit, rfl⟩

namespace Store

variable {s : Store} {fetch : Nat → Except Error (List Json)} {size : Nat}

/-- The rows of a query, on one page. -/
def allRows (s : Store) (q : Query) : List Json :=
  ((Query.sort q.options (s.contracts.map Contract.toRow)).filter fun c =>
    q.filter.answer s.rowsLinked [(q.tables.contracts, c)]).map (q.rowIn s.rowsLinked)

theorem run_onPage (s : Store) (q : Query) (skip limit : Option Nat) :
    s.run (q.onPage skip limit) = .ok (page (skip.getD 0) limit (s.allRows q)) := by
  rw [run, linkSource_eq, Query.pageRows_known]
  rfl

/-- The rows of a schema with its options. -/
def rowsFor [TextLibrary] (s : Store) (tables : Tables) (select : Selection) (schema : Schema)
    (options : QueryOptions) : Except Error (List Json) := do
  s.run (← Query.compile tables select schema options)

theorem rowsFor_onPage [TextLibrary] (h : Query.compile tables select schema options = .ok q)
    (s : Store) (skip : Option Nat) {limit : Option Nat} (hlimit : limit ≠ some 0) :
    s.rowsFor tables select schema (options.onPage skip limit)
      = .ok (page (skip.getD 0) limit (s.allRows q)) := by
  rw [rowsFor, Query.compile_onPage h skip hlimit]
  exact s.run_onPage q skip limit

/-- What is read page after page, each fetched by how many rows to skip, up to
    the first empty page. -/
inductive Reads (fetch : Nat → Except Error (List Json)) (size : Nat) :
    Nat → List Json → Prop where
  | done {skip : Nat} (h : fetch skip = .ok []) : Reads fetch size skip []
  | next {skip : Nat} {rows rest : List Json} (h : fetch skip = .ok rows)
      (hrows : rows ≠ []) (hrest : Reads fetch size (skip + size) rest) :
      Reads fetch size skip (rows ++ rest)

/-- A page and all that is on later pages is all that is on this page and
    later ones. -/
theorem take_append_drop_skip {α : Type} (l : List α) (skip size : Nat) :
    (l.drop skip).take size ++ l.drop (skip + size) = l.drop skip := by
  rw [← List.drop_drop, List.take_append_drop]

/-- Reading from somewhere on gives what is not skipped, and ends. -/
theorem reads_iff {rows : List Json}
    (hfetch : ∀ skip, fetch skip = .ok ((rows.drop skip).take size)) (hsize : 0 < size)
    {skip : Nat} {read : List Json} :
    Reads fetch size skip read ↔ read = rows.drop skip := by
  constructor
  · intro h
    induction h with
    | @done skip h =>
        -- an empty page has nothing after it
        have hempty := Except.ok.inj ((hfetch skip).symm.trans h)
        rw [List.take_eq_nil_iff] at hempty
        exact (hempty.resolve_left hsize.ne').symm
    | @next skip found rest h _ _ ih =>
        obtain rfl := Except.ok.inj ((hfetch skip).symm.trans h)
        rw [ih, take_append_drop_skip]
  · rintro rfl
    -- what is left gets shorter with every page that is not empty
    induction hleft : (rows.drop skip).length using Nat.strongRecOn generalizing skip with
    | ind left ih =>
        by_cases hempty : rows.drop skip = []
        · rw [hempty]
          refine .done ?_
          rw [hfetch, hempty, List.take_nil]
        · have hlength := List.length_pos_iff.mpr hempty
          have hfound : (rows.drop skip).take size ≠ [] := by
            rw [Ne, List.take_eq_nil_iff, not_or]
            exact ⟨hsize.ne', hempty⟩
          have hrest := ih (rows.drop (skip + size)).length
            (by simp only [List.length_drop] at hlength hleft ⊢; omega) rfl
          have hread := Reads.next (hfetch skip) hfound hrest
          rwa [take_append_drop_skip] at hread

/-- Every page of a query is the slice of all its rows that it asks for, and
    reading page after page gives all its rows, each once and in order. -/
theorem pages_partition [TextLibrary] (h : Query.compile tables select schema options = .ok q)
    (s : Store) :
    ∃ rows, s.rowsFor tables select schema (options.onPage none none) = .ok rows
      ∧ (∀ skip limit, 0 < limit →
        s.rowsFor tables select schema (options.onPage (some skip) (some limit))
          = .ok ((rows.drop skip).take limit))
      ∧ ∀ size, 0 < size → ∀ read,
        Reads (fun skip =>
            s.rowsFor tables select schema (options.onPage (some skip) (some size)))
          size 0 read ↔ read = rows := by
  have hpage (skip limit : Nat) (hlimit : 0 < limit) :
      s.rowsFor tables select schema (options.onPage (some skip) (some limit))
        = .ok (((s.allRows q).drop skip).take limit) :=
    rowsFor_onPage h s (some skip) (by simpa using hlimit.ne')
  refine ⟨s.allRows q, rowsFor_onPage h s none nofun, hpage, fun size hsize read => ?_⟩
  exact reads_iff (fun skip => hpage skip size hsize) hsize

/-! ## A board in pages of one card -/

section Board

open Query.Board

theorem contracts_board :
    (store start next).contracts = [card "a" start, card "b" next] := by
  have hreread {id : String} {t : Instant} (ht : t.Writable) :
      (card id t).reread = some (card id t) :=
    Contract.reread_eq rfl rfl rfl ht.readable rfl rfl nofun
  simp [contracts, store, StoredRow.ofContract, hreread writable_start, hreread writable_next]

/-- The query for all contracts. -/
def everything : Query := ⟨{}, .empty, .always, [], {}⟩

/-- The row of a card among all contracts. -/
def rowOf (c : Contract) : Json := .object [("contract", c.toRow), ("id", .string c.id)]

theorem allRows_board :
    (store start next).allRows everything
      = [rowOf (card "a" start), rowOf (card "b" next)] := by
  have hsort : Query.sort {} [(card "a" start).toRow, (card "b" next).toRow]
      = [(card "a" start).toRow, (card "b" next).toRow] := by
    rw [Query.sort, List.mergeSort_of_pairwise]
    decide +kernel
  rw [allRows, contracts_board]
  show (List.filter _ (Query.sort {} [(card "a" start).toRow, (card "b" next).toRow])).map _ = _
  rw [hsort]
  rfl

/-- A board of two cards has two pages of one card, and an empty one after
    them. -/
theorem pages_partition_board :
    (store start next).rowsFor {} .empty (.bool true) {}
        = .ok [rowOf (card "a" start), rowOf (card "b" next)]
      ∧ (store start next).rowsFor {} .empty (.bool true) { skip := some 1, limit := some 1 }
        = .ok [rowOf (card "b" next)]
      ∧ Reads (fun skip => (store start next).rowsFor {} .empty (.bool true)
          { skip := some skip, limit := some 1 }) 1 0
        [rowOf (card "a" start), rowOf (card "b" next)] := by
  have hcompile : Query.compile {} .empty (.bool true) {} = .ok everything := rfl
  obtain ⟨rows, hall, hpage, hread⟩ := pages_partition hcompile (store start next)
  have hrows : (store start next).rowsFor {} .empty (.bool true) {}
      = .ok ((store start next).allRows everything) := rowsFor_onPage hcompile _ none nofun
  obtain rfl := Except.ok.inj (hall.symm.trans hrows)
  rw [allRows_board] at hall hpage hread
  exact ⟨hall, hpage 1 1 (by decide), (hread 1 (by decide) _).mpr rfl⟩

end Board

end Store

end LinkedContracts
