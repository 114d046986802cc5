import Mathlib.Data.List.Perm.Basic
import LinkedContracts.Proofs.Filter.Renamed
import LinkedContracts.Proofs.Query.Pieces

/-! # Parameters and quotes of statements

    A statement refers to each of its parameters once, by the number of its
    place in the list.  Names and texts, whatever they hold, stay between
    their quotes: they change nothing else of the statement. -/

namespace LinkedContracts

open Sql
open Sql.Piece (word group listed write field Fit)

namespace Query

/-! ## Joins with what stands before them -/

/-- Joins, each with how many parameters stand before it. -/
def placed : List (Join × Selection) → Nat → List ((Join × Selection) × Nat)
  | [], _ => []
  | (j, select) :: rest, n =>
      ((j, select), n) :: placed rest (n + j.filter.parameters.length)

theorem map_fst_placed (js : List (Join × Selection)) (n : Nat) :
    (placed js n).map Prod.fst = js := by
  induction js generalizing n with
  | nil => rfl
  | cons js rest ih => exact congrArg (js :: ·) (ih _)

theorem joinTexts_eq_placed (tables : Tables) (js : List (Join × Selection))
    (n : Nat) :
    joinTexts tables js n
      = (placed js n).map fun p => joinText tables p.1.1 p.1.2 p.2 := by
  induction js generalizing n with
  | nil => rfl
  | cons js rest ih =>
      obtain ⟨j, select⟩ := js
      rw [joinTexts, ih, joinText_eq_write, placed, List.map_cons,
        joinText_eq_write]

/-- What the joins before leave is where the parameters of a join begin. -/
theorem range'_placed (js : List (Join × Selection)) (n : Nat) :
    (placed js n).flatMap
        (fun p => List.range' (p.2 + 1) p.1.1.filter.parameters.length)
      = List.range' (n + 1) (js.flatMap (·.1.filter.parameters)).length := by
  induction js generalizing n with
  | nil => rfl
  | cons js rest ih =>
      rw [placed, List.flatMap_cons, ih, List.flatMap_cons, List.length_append,
        Nat.add_right_comm, List.range'_append_1]

/-! ## Order and paging -/

theorem isPlain_of_isDigit {c : Char} (h : c.isDigit = true) : isPlain c = true := by
  have hne (d : Char) (hd : d.isDigit = false) : c ≠ d := by
    rintro rfl
    simp [h] at hd
  simp [isPlain, isSign, isQuote, hne '\'' (by decide), hne '"' (by decide),
    hne '$' (by decide), hne '(' (by decide), hne ')' (by decide)]

theorem fixed_toString (n : Nat) :
    (toString n != "" && (toString n).toList.all isPlain) = true := by
  rw [Nat.toString_eq_ofList_toDigits, Bool.and_eq_true]
  refine ⟨bne_iff_ne.mpr fun h => ?_, ?_⟩
  · exact Nat.toDigits_ne_nil (String.ofList_eq_empty_iff.mp h)
  · rw [String.toList_ofList]
    exact List.all_eq_true.mpr fun c hc =>
      isPlain_of_isDigit (Nat.isDigit_of_mem_toDigits (by decide) (by decide) hc)

/-- A number as a word. -/
def numberWord (n : Nat) : Word := ⟨toString n, fixed_toString n⟩

/-- The pieces of what stands before a separator in a text. -/
def firstPart (expr : List Piece) (separator : String) : List Piece :=
  word (.of "split_part") :: group (expr ++ [.word Piece.comma, .text separator,
    word (.of ", 1")])

/-- The pieces of the expression results are ordered by. -/
def orderExpressionPieces (table : String) (keys : List String) : List Piece :=
  if QueryOptions.byVersion keys then
    word (.of "string_to_array") :: (group (firstPart (firstPart (field table "version")
      "+") "-" ++ [.word Piece.comma, .text "."]) ++ [word (.of "::int[]")])
  else (ValuePath.mk (.row table) keys).pieces

/-- The pieces of the order of the results. -/
def orderPieces (table : String) (options : QueryOptions) : List Piece :=
  match options.sortKeys? with
  | none =>
      field table "created_at" ++ word (.of " ASC, ") :: (field table "id"
        ++ [word (.of " ASC")])
  | some keys =>
      orderExpressionPieces table keys
        ++ (if options.descending then word (.of " DESC") else word (.of " ASC"))
          :: .word Piece.comma :: (field table "id" ++ [word (.of " ASC")])

/-- The pieces of the lines of paging. -/
def pagingPieces (options : QueryOptions) : List (List Piece) :=
  (options.limit.toList.map fun n => [word (.of "LIMIT "), .word (numberWord n)])
  ++ ((options.skip.filter (0 < ·)).toList.map fun n =>
    [word (.of "OFFSET "), .word (numberWord n)])

theorem write_orderExpressionPieces (table : String) (keys : List String) :
    write (orderExpressionPieces table keys) = orderExpression table keys := by
  have hversion : ident "version" = "\"version\"" := by decide
  have hplus : literal "+" = "'+'" := by decide
  have hminus : literal "-" = "'-'" := by decide
  have hdot : literal "." = "'.'" := by decide
  rw [orderExpressionPieces, orderExpression]
  split
  · rw [← String.toList_inj]
    simp [firstPart, Piece.write_field, hversion, hplus, hminus, hdot, Piece.comma]
  · exact ValuePath.write_pieces _

theorem write_orderPieces (table : String) (options : QueryOptions) :
    write (orderPieces table options) = orderText table options := by
  have hcreated : write (field table "created_at")
      = ident table ++ ".\"created_at\"" := Piece.write_column table (by decide)
  rw [orderPieces, orderText]
  cases options.sortKeys? with
  | none =>
      rw [← String.toList_inj]
      simp [hcreated, Piece.write_id]
  | some keys =>
      rw [← String.toList_inj]
      cases options.descending <;>
        simp [Piece.write_id, write_orderExpressionPieces, Piece.comma]

theorem write_pagingPieces (options : QueryOptions) :
    (pagingPieces options).map write = pagingLines options := by
  have hnumber (w : Word) (n : Nat) :
      write [word w, word (numberWord n)] = w.text ++ toString n := by
    simp [numberWord]
  rw [pagingPieces, pagingLines, List.map_append, List.map_map, List.map_map]
  exact congrArg₂ (· ++ ·) (List.map_congr_left fun n _ => hnumber _ n)
    (List.map_congr_left fun n _ => hnumber _ n)

theorem fit_orderPieces (table : String) (options : QueryOptions) :
    Fit (orderPieces table options) := by
  have hpart {expr : List Piece} (h : Fit expr) (separator : String) :
      Fit (firstPart expr separator) := by
    simp [firstPart, h]
  have hexpression (keys : List String) : Fit (orderExpressionPieces table keys) := by
    rw [orderExpressionPieces]
    split
    · simp [hpart (hpart (Piece.fit_field table "version") "+") "-"]
    · exact ValuePath.fit_pieces _
  rw [orderPieces]
  cases options.sortKeys? with
  | none => simp
  | some keys => cases options.descending <;> simp [hexpression]

theorem numbers_orderPieces (table : String) (options : QueryOptions) :
    (orderPieces table options).flatMap Piece.numbers = [] := by
  have hexpression (keys : List String) :
      (orderExpressionPieces table keys).flatMap Piece.numbers = [] := by
    rw [orderExpressionPieces]
    split
    · simp [firstPart]
    · exact ValuePath.numbers_pieces _
  rw [orderPieces]
  cases options.sortKeys? with
  | none =>
      simp only [List.flatMap_append, List.flatMap_cons, Piece.numbers_field,
        Piece.numbers_word, List.flatMap_nil, List.append_nil]
  | some keys =>
      cases options.descending <;>
        simp only [List.flatMap_append, List.flatMap_cons, Piece.numbers_field,
          Piece.numbers_word, hexpression, List.flatMap_nil, List.append_nil,
          if_true, Bool.false_eq_true, if_false]

theorem forall_mem_pagingPieces (options : QueryOptions) :
    ∀ ps ∈ pagingPieces options, Fit ps ∧ ps.flatMap Piece.numbers = [] := by
  have hnumber (w : Word) (n : Nat) : Fit [word w, word (numberWord n)]
      ∧ [word w, word (numberWord n)].flatMap Piece.numbers = [] := by
    simp
  refine List.forall_mem_append.mpr ⟨?_, ?_⟩
  · exact List.forall_mem_map.mpr fun n _ => hnumber _ n
  · exact List.forall_mem_map.mpr fun n _ => hnumber _ n

/-! ## The statement -/

/-- The pieces of the columns of a query. -/
def columnsPieces (q : Query) : List (List Piece) :=
  (field q.tables.contracts "id" ++ [word (.of " AS "), .name "id"])
    :: (projectionPieces q.select
        (word (.of "to_jsonb") :: group [.name q.tables.contracts]) 0
      ++ [word (.of " AS "), .name "contract"])
    :: (placed q.selectedJoins 0).map fun p =>
      columnPieces q.tables p.1.1 p.1.2 p.2

/-- The pieces of the lines of the joins of a query. -/
def joinLines (q : Query) : List (List Piece) :=
  (placed q.selectedJoins 0).flatMap fun p =>
    [linksLine q.tables p.1.1, contractsLine q.tables p.1.1 p.2]

/-- The parameters of the joins of a query. -/
def joinParameters (q : Query) : List Json :=
  q.selectedJoins.flatMap (·.1.filter.parameters)

/-- The pieces of the lines of a statement. -/
def lines (q : Query) : List (List Piece) :=
  [word (.of "SELECT ") :: listed (.of ",\n  ") (columnsPieces q),
   [word (.of "FROM "), .name q.tables.contracts]]
  ++ joinLines q
  ++ [word (.of "WHERE ") :: q.filter.pieces q.tables (joinParameters q).length]
  ++ (if q.selectedJoins.isEmpty then []
    else [word (.of "GROUP BY ") :: field q.tables.contracts "id"])
  ++ [word (.of "ORDER BY ") :: orderPieces q.tables.contracts q.options]
  ++ pagingPieces q.options

/-- The pieces of a statement. -/
def statementPieces (q : Query) : List Piece :=
  listed (.of "\n") (lines q)

theorem write_columnsPieces (q : Query) :
    (columnsPieces q).map write
      = (ident q.tables.contracts ++ ".\"id\" AS \"id\"")
        :: (projection q.select ("to_jsonb(" ++ ident q.tables.contracts ++ ")") 0
          ++ " AS \"contract\"")
        :: (joinTexts q.tables q.selectedJoins 0).map JoinText.column := by
  have hid : write (field q.tables.contracts "id" ++ [word (.of " AS "), .name "id"])
      = ident q.tables.contracts ++ ".\"id\" AS \"id\"" := by
    have hname : ident "id" = "\"id\"" := by decide
    rw [← String.toList_inj]
    simp [Piece.write_id, hname]
  have hcontract : write (projectionPieces q.select
        (word (.of "to_jsonb") :: group [.name q.tables.contracts]) 0
        ++ [word (.of " AS "), .name "contract"])
      = projection q.select ("to_jsonb(" ++ ident q.tables.contracts ++ ")") 0
        ++ " AS \"contract\"" := by
    have hname : ident "contract" = "\"contract\"" := by decide
    rw [← write_rowProjection, ← String.toList_inj]
    simp [hname]
  have hjoins : ((placed q.selectedJoins 0).map fun p =>
        columnPieces q.tables p.1.1 p.1.2 p.2).map write
      = (joinTexts q.tables q.selectedJoins 0).map JoinText.column := by
    rw [joinTexts_eq_placed, List.map_map, List.map_map]
    exact List.map_congr_left fun p _ => by
      simp only [Function.comp_apply, joinText_eq_write]
  rw [columnsPieces, List.map_cons, List.map_cons, hid, hcontract, hjoins]

theorem write_joinLines (q : Query) :
    (joinLines q).map write
      = (joinTexts q.tables q.selectedJoins 0).flatMap JoinText.lines := by
  rw [joinTexts_eq_placed, joinLines, List.map_flatMap, List.flatMap_map]
  refine List.flatMap_congr fun p _ => ?_
  rw [joinText_eq_write]
  rfl

theorem params_joinTexts (q : Query) :
    (joinTexts q.tables q.selectedJoins 0).flatMap JoinText.params
      = joinParameters q := by
  have hparams : (placed q.selectedJoins 0).flatMap (fun p =>
        (joinText q.tables p.1.1 p.1.2 p.2).params)
      = (placed q.selectedJoins 0).flatMap (·.1.1.filter.parameters) :=
    List.flatMap_congr fun p _ => by rw [joinText_eq_write]
  have hfst := congrArg (List.flatMap (fun js : Join × Selection =>
    js.1.filter.parameters)) (map_fst_placed q.selectedJoins 0)
  rw [List.flatMap_map] at hfst
  rw [joinTexts_eq_placed, List.flatMap_map, hparams]
  exact hfst

/-- A statement is written from its pieces, with the parameters of the joins
    and then those of the filter. -/
theorem statement_eq_write (q : Query) :
    q.statement
      = (write (statementPieces q), joinParameters q ++ q.filter.parameters) := by
  have hempty : (joinTexts q.tables q.selectedJoins 0).isEmpty
      = q.selectedJoins.isEmpty := by
    rw [joinTexts_eq_placed, List.isEmpty_map]
    cases q.selectedJoins <;> rfl
  have hlines : (lines q).map write
      = ["SELECT " ++ joinWith ",\n  " ((columnsPieces q).map write),
         "FROM " ++ ident q.tables.contracts]
        ++ (joinLines q).map write
        ++ ["WHERE " ++ write (q.filter.pieces q.tables (joinParameters q).length)]
        ++ (if q.selectedJoins.isEmpty then []
          else ["GROUP BY " ++ ident q.tables.contracts ++ ".\"id\""])
        ++ ["ORDER BY " ++ orderText q.tables.contracts q.options]
        ++ pagingLines q.options := by
    have hgroup : write (word (.of "GROUP BY ") :: field q.tables.contracts "id")
        = "GROUP BY " ++ ident q.tables.contracts ++ ".\"id\"" := by
      rw [Piece.write_word, Piece.write_id, String.append_assoc]
    have hgroups : (if q.selectedJoins.isEmpty then []
          else [word (.of "GROUP BY ") :: field q.tables.contracts "id"]).map write
        = if q.selectedJoins.isEmpty then []
          else ["GROUP BY " ++ ident q.tables.contracts ++ ".\"id\""] := by
      split
      · rfl
      · rw [List.map_singleton, hgroup]
    simp only [lines, List.map_append, List.map_cons, List.map_nil, hgroups,
      write_pagingPieces, Piece.write_word, Piece.write_listed, Piece.write_name,
      Piece.write_nil, String.append_empty, write_orderPieces]
  rw [statementPieces, Piece.write_listed, hlines, write_columnsPieces,
    write_joinLines]
  unfold statement
  simp only [params_joinTexts, Filter.render_eq_write, hempty]

theorem fit_columnsPieces (q : Query) : ∀ ps ∈ columnsPieces q, Fit ps := by
  have hrow : Fit (word (.of "to_jsonb") :: group [.name q.tables.contracts]) := by simp
  refine List.forall_mem_cons.mpr ⟨by simp, List.forall_mem_cons.mpr ⟨?_, ?_⟩⟩
  · simp [fit_projectionPieces q.select hrow 0]
  · exact List.forall_mem_map.mpr fun p _ => fit_columnPieces _ _ _ _

theorem fit_joinLines (q : Query) : ∀ ps ∈ joinLines q, Fit ps := by
  intro ps hps
  obtain ⟨p, -, hp⟩ := List.mem_flatMap.mp hps
  rcases List.mem_pair.mp hp with rfl | rfl
  · exact fit_linksLine _ _
  · exact fit_contractsLine _ _ _

theorem fit_statementPieces (q : Query) : Fit (statementPieces q) := by
  refine Fit.listed _ fun ps hps => ?_
  rw [lines] at hps
  simp only [List.mem_append, List.mem_cons, List.not_mem_nil, or_false] at hps
  obtain ((((((rfl | rfl) | hps) | rfl) | hps) | rfl) | hps) := hps
  · exact Fit.word_iff.mpr (Fit.listed _ (fit_columnsPieces q))
  · exact Fit.word_iff.mpr (Fit.name _)
  · exact fit_joinLines q ps hps
  · exact Fit.word_iff.mpr (q.filter.fit_pieces _ _)
  · split at hps
    · cases hps
    · rw [List.mem_singleton.mp hps]
      exact Fit.word_iff.mpr (Piece.fit_field _ _)
  · exact Fit.word_iff.mpr (fit_orderPieces _ _)
  · exact (forall_mem_pagingPieces _ ps hps).1

/-- The joins of a query refer to their parameters once each, in columns and
    lines. -/
theorem numbers_joins (q : Query) :
    (((columnsPieces q).map (·.flatMap Piece.numbers)).flatten
        ++ ((joinLines q).map (·.flatMap Piece.numbers)).flatten).Perm
      (List.range' 1 (joinParameters q).length) := by
  have hrow : (word (.of "to_jsonb") :: group [.name q.tables.contracts] :
      List Piece).flatMap Piece.numbers = [] := by simp
  have hselected := numbers_projectionPieces q.select hrow 0
  have hcolumns : ((columnsPieces q).map (·.flatMap Piece.numbers)).flatten
      = (placed q.selectedJoins 0).flatMap fun p =>
        (columnPieces q.tables p.1.1 p.1.2 p.2).flatMap Piece.numbers := by
    simp only [columnsPieces, List.map_cons, List.flatten_cons, List.flatMap_append,
      hselected, List.flatMap_cons, Piece.numbers_word, Piece.numbers_name,
      Piece.numbers_field, List.flatMap_nil, List.nil_append, List.map_map,
      List.flatMap_def (l := placed q.selectedJoins 0)]
    rfl
  have hlines : ((joinLines q).map (·.flatMap Piece.numbers)).flatten
      = (placed q.selectedJoins 0).flatMap fun p =>
        (linksLine q.tables p.1.1).flatMap Piece.numbers
          ++ (contractsLine q.tables p.1.1 p.2).flatMap Piece.numbers := by
    rw [← List.flatMap_def, joinLines, List.flatMap_assoc]
    exact List.flatMap_congr fun p _ => by
      rw [List.flatMap_cons, List.flatMap_singleton]
  have heach : ((placed q.selectedJoins 0).flatMap fun p =>
        (columnPieces q.tables p.1.1 p.1.2 p.2).flatMap Piece.numbers
          ++ ((linksLine q.tables p.1.1).flatMap Piece.numbers
            ++ (contractsLine q.tables p.1.1 p.2).flatMap Piece.numbers))
      = List.range' 1 (joinParameters q).length := by
    refine Eq.trans ?_ (range'_placed q.selectedJoins 0)
    refine List.flatMap_congr fun p _ => ?_
    exact numbers_joinPieces q.tables p.1.1 p.1.2 p.2
  -- all columns are written before all lines, so the order is not that of
  -- the joins
  rw [hcolumns, hlines, ← heach]
  exact List.flatMap_append_perm _ _ _

/-- A statement refers to each of its parameters once. -/
theorem numbers_statementPieces (q : Query) :
    ((statementPieces q).flatMap Piece.numbers).Perm
      (List.range' 1 (joinParameters q ++ q.filter.parameters).length) := by
  have hpaging : ((pagingPieces q.options).map (·.flatMap Piece.numbers)).flatten
      = [] :=
    List.flatten_eq_nil_iff.mpr (List.forall_mem_map.mpr fun ps hps =>
      (forall_mem_pagingPieces q.options ps hps).2)
  have hgroup : ((if q.selectedJoins.isEmpty then []
      else [word (.of "GROUP BY ") :: field q.tables.contracts "id"]).map
        (·.flatMap Piece.numbers)).flatten = [] := by
    split <;> simp
  have hlines : (statementPieces q).flatMap Piece.numbers
      = ((columnsPieces q).map (·.flatMap Piece.numbers)).flatten
        ++ ((joinLines q).map (·.flatMap Piece.numbers)).flatten
        ++ List.range' ((joinParameters q).length + 1) q.filter.parameters.length := by
    simp only [statementPieces, Piece.numbers_listed, lines, List.map_append,
      List.flatten_append, List.map_cons, List.map_nil, List.flatten_cons,
      List.flatten_nil, List.flatMap_cons, Piece.numbers_word, Piece.numbers_name,
      List.flatMap_nil, hgroup, hpaging, numbers_orderPieces,
      Filter.numbers_pieces, List.nil_append, List.append_nil]
  rw [hlines, List.length_append, ← List.range'_append_1, Nat.add_comm 1]
  exact (numbers_joins q).append_right _

end Query

/-! ## Parameters line up -/

namespace Filter

variable (tables : Tables) (f : Filter) (n : Nat)

theorem placeholders_render :
    placeholders (f.render tables n).1
      = List.range' (n + 1) f.parameters.length := by
  rw [render_eq_write, Piece.placeholders_write (f.fit_pieces tables n),
    numbers_pieces]

theorem unnumbered_render (m : Nat) :
    unnumbered (f.render tables n).1 = unnumbered (f.render tables m).1 := by
  rw [render_eq_write, render_eq_write,
    Piece.unnumbered_write (f.fit_pieces tables n),
    Piece.unnumbered_write (f.fit_pieces tables m), unnumbered_pieces tables f n m]

theorem skeleton_render_blank (tables' : Tables) :
    skeleton (f.blank.render tables' n).1 = skeleton (f.render tables n).1 := by
  rw [render_eq_write, render_eq_write,
    Piece.skeleton_write (f.blank.fit_pieces tables' n),
    Piece.skeleton_write (f.fit_pieces tables n), bare_blank tables' tables f n]

end Filter

/-- Placeholders and parameters line up.  After `n` others, the condition of a
    filter refers to its parameters by the numbers that follow, in order and
    once each, and depends on `n` in these numbers only.  The parameters of a
    statement are those of its joins, parents first, and then those of its
    filter, and it refers to each of them once. -/
theorem placeholders_line_up :
    (∀ (tables : Tables) (f : Filter) (n : Nat),
      (f.render tables n).2 = f.parameters
      ∧ placeholders (f.render tables n).1
        = List.range' (n + 1) f.parameters.length
      ∧ ∀ m, unnumbered (f.render tables n).1 = unnumbered (f.render tables m).1)
    ∧ ∀ q : Query,
      q.statement.2
        = q.selectedJoins.flatMap (·.1.filter.parameters) ++ q.filter.parameters
      ∧ (placeholders q.statement.1).Perm
        (List.range' 1 q.statement.2.length) := by
  refine ⟨fun tables f n => ⟨?_, f.placeholders_render tables n,
    f.unnumbered_render tables n⟩, fun q => ?_⟩
  · rw [Filter.render_eq_write]
  · rw [Query.statement_eq_write, Piece.placeholders_write q.fit_statementPieces]
    exact ⟨rfl, q.numbers_statementPieces⟩

/-! ## Names stay between their quotes -/

/-- No name or text escapes its quotes.  Filters that differ in names only have
    conditions that differ between quotes only, and a statement ends outside of
    quotes with its parentheses balanced. -/
theorem names_stay_quoted :
    (∀ (tables tables' : Tables) (f g : Filter) (n : Nat), f.blank = g.blank →
      skeleton (f.render tables n).1 = skeleton (g.render tables' n).1)
    ∧ ∀ q : Query, Closed q.statement.1 ∧ Balanced q.statement.1 := by
  refine ⟨fun tables tables' f g n h => ?_, fun q => ?_⟩
  · rw [← f.skeleton_render_blank tables n tables, h, g.skeleton_render_blank]
  · rw [Query.statement_eq_write]
    exact ⟨Piece.closed_write q.fit_statementPieces,
      Piece.balanced_write q.fit_statementPieces⟩

/-- A condition on the members of a linked contract, under given names. -/
def memberTest (row linkType join known member key : String) : Filter :=
  .linked row linkType join
    (.each ⟨.row join, ["data", key]⟩ (.others [known]) .all member
      (.equals ⟨.member member, [key]⟩ (.string "v")))

/-- Names with quotes of both kinds, and with what could end a condition,
    change nothing outside of quotes. -/
theorem names_stay_quoted_memberTest :
    (memberTest "cards" "is owned by" "join@0" "a" "e0" "key").blank
        = (memberTest "ca\"rds" "it's" "j\"\"oin'" "a'') OR true --" "\""
          "k'e\"y").blank
      ∧ skeleton ((memberTest "cards" "is owned by" "join@0" "a" "e0"
          "key").render ⟨"cards", "links"⟩ 0).1
        = skeleton ((memberTest "ca\"rds" "it's" "j\"\"oin'" "a'') OR true --"
          "\"" "k'e\"y").render ⟨"cards", "li\"nks'"⟩ 0).1 :=
  ⟨rfl, names_stay_quoted.1 _ _ _ _ 0 rfl⟩

end LinkedContracts
