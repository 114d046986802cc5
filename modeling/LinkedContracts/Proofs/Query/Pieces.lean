import LinkedContracts.Proofs.Filter.Pieces
import LinkedContracts.Query.Statement

/-! # The pieces of a query

    The statement of a query is written from pieces that fit together: the
    columns of what is selected, the joins with their filters, the filter of
    the query, and the order. -/

namespace LinkedContracts

open Sql
open Sql.Piece (word group listed write field Fit)

namespace Query

/-! ## Selected parts -/

/-- The pieces of the value at a key of a part, given the cases of the keys
    that are cut down. -/
def partPieces (part : String) (cases : List (List Piece)) : List Piece :=
  if cases.isEmpty then field part "value"
  else word (.of "CASE ") :: (field part "key" ++ word (.of " ")
    :: (listed (.of " ") cases
      ++ word (.of " ELSE ") :: (field part "value" ++ [word (.of " END")])))

/-- The pieces of an object cut down to some of its keys, each with its
    value. -/
def cutPieces (part : String) (keys : List String) (value expr : List Piece) :
    List Piece :=
  let pairs := word (.of "jsonb_object_agg")
    :: group (field part "key" ++ .word Piece.comma :: value)
  let object :=
    pairs ++ [.word Piece.comma, .text "\x7b\x7d", word (.of "::jsonb")]
  group (word (.of "SELECT coalesce") :: (group object
    ++ word (.of " FROM jsonb_each") :: (group expr ++ word (.of " AS ") :: .name part
      :: (group [.name "key", .word Piece.comma, .name "value"]
        ++ word (.of " WHERE ") :: (field part "key" ++ word (.of " IN ")
          :: group (listed Piece.comma (keys.map fun key => [.text key])))))))

mutual

/-- The pieces of an expression cut down to what is selected of it. -/
def projectionPieces : Selection → List Piece → Nat → List Piece
  | ⟨[], _⟩, expr, _ => expr
  | ⟨p :: ps, _⟩, expr, depth =>
      let part := "p" ++ toString depth
      let cases := casePieces (p :: ps) (field part "value") (depth + 1)
      Piece.whenType expr "object"
        (cutPieces part (Dict.keys (p :: ps)) (partPieces part cases) expr) expr

/-- The pieces of the cases of the properties that are cut down themselves. -/
def casePieces :
    List (String × Selection) → List Piece → Nat → List (List Piece)
  | [], _, _ => []
  | (key, sub) :: rest, expr, depth =>
      if sub.properties.isEmpty then casePieces rest expr depth
      else (word (.of "WHEN ") :: .text key :: word (.of " THEN ")
          :: projectionPieces sub expr depth)
        :: casePieces rest expr depth

end

theorem write_partPieces (part : String) (cases : List (List Piece)) :
    write (partPieces part cases)
      = if (cases.map write).isEmpty then ident part ++ ".\"value\""
        else "CASE " ++ ident part ++ ".\"key\" " ++ joinWith " " (cases.map write)
          ++ " ELSE " ++ ident part ++ ".\"value\" END" := by
  have hkey : write (field part "key") = ident part ++ ".\"key\"" :=
    Piece.write_column part (by decide)
  rw [List.isEmpty_map, partPieces]
  split
  · exact Piece.write_value part
  · rw [← String.toList_inj]
    simp [hkey, Piece.write_value]

theorem write_cutPieces (part : String) (keys : List String)
    (value expr : List Piece) :
    write (cutPieces part keys value expr)
      = "(SELECT coalesce(jsonb_object_agg(" ++ ident part ++ ".\"key\", "
        ++ write value ++ "), '\x7b\x7d'::jsonb) FROM jsonb_each(" ++ write expr
        ++ ") AS " ++ ident part ++ "(\"key\", \"value\") WHERE " ++ ident part
        ++ ".\"key\" IN (" ++ joinWith ", " (keys.map literal) ++ "))" := by
  have hkeys : (keys.map fun key => [Piece.text key]).map write
      = keys.map literal := by
    rw [List.map_map]
    exact List.map_congr_left fun key _ => by simp
  rw [← String.toList_inj, cutPieces]
  simp [Piece.write_field, ident_key, ident_value, literal_emptyObject, hkeys,
    Piece.comma]

mutual

theorem write_projectionPieces : ∀ (select : Selection) (expr : List Piece)
    (depth : Nat),
    write (projectionPieces select expr depth)
      = projection select (write expr) depth
  | ⟨[], _⟩, _, _ => rfl
  | ⟨p :: ps, _⟩, expr, depth => by
      have hcases := write_casePieces (p :: ps)
        (field ("p" ++ toString depth) "value") (depth + 1)
      rw [Piece.write_value] at hcases
      have hthen : ") = 'object' THEN (SELECT coalesce(jsonb_object_agg(".toList
          = ") = '".toList ++ ("object".toList ++ ("' THEN ".toList
            ++ "(SELECT coalesce(jsonb_object_agg(".toList)) := by
        decide +kernel
      have helse : ")) ELSE ".toList = "))".toList ++ " ELSE ".toList := by
        decide +kernel
      rw [projectionPieces, Piece.write_whenType _ _ _ _ (by decide),
        write_cutPieces, write_partPieces, hcases, ← String.toList_inj]
      unfold projection whenType
      simp only [String.toList_append, List.append_assoc, hthen, helse]

theorem write_casePieces : ∀ (props : List (String × Selection))
    (expr : List Piece) (depth : Nat),
    (casePieces props expr depth).map write
      = projectionCases props (write expr) depth
  | [], _, _ => rfl
  | (key, sub) :: rest, expr, depth => by
      rw [casePieces, projectionCases]
      split
      · exact write_casePieces rest expr depth
      · rw [List.map_cons, write_casePieces rest expr depth,
          ← write_projectionPieces sub expr depth]
        simp [String.append_assoc]

end

theorem fit_partPieces (part : String) {cases : List (List Piece)}
    (h : ∀ ps ∈ cases, Fit ps) : Fit (partPieces part cases) := by
  rw [partPieces]
  split
  · simp
  · simp [Fit.listed _ h]

theorem fit_cutPieces (part : String) (keys : List String)
    {value expr : List Piece} (hvalue : Fit value) (hexpr : Fit expr) :
    Fit (cutPieces part keys value expr) := by
  have hkeys := Fit.listed Piece.comma (List.forall_mem_map.mpr
    fun key (_ : key ∈ keys) => Fit.text key)
  have hpair : Fit (field part "key" ++ .word Piece.comma :: value) := by
    simp [hvalue]
  refine Fit.group ?_
  simp [hpair, hkeys, hexpr]

mutual

theorem fit_projectionPieces : ∀ (select : Selection) {expr : List Piece}
    (_ : Fit expr) (depth : Nat), Fit (projectionPieces select expr depth)
  | ⟨[], _⟩, _, h, _ => h
  | ⟨p :: ps, _⟩, _, h, depth =>
      Piece.fit_whenType h _
        (fit_cutPieces _ _ (fit_partPieces _
          (fit_casePieces (p :: ps) (Piece.fit_field _ _) (depth + 1))) h) h

theorem fit_casePieces : ∀ (props : List (String × Selection))
    {expr : List Piece} (_ : Fit expr) (depth : Nat),
    ∀ ps ∈ casePieces props expr depth, Fit ps
  | [], _, _, _ => List.forall_mem_nil _
  | (key, sub) :: rest, _, h, depth => by
      rw [casePieces]
      split
      · exact fit_casePieces rest h depth
      · exact List.forall_mem_cons.mpr
          ⟨by simp [fit_projectionPieces sub h depth], fit_casePieces rest h depth⟩

end

theorem numbers_partPieces (part : String) {cases : List (List Piece)}
    (h : ∀ ps ∈ cases, ps.flatMap Piece.numbers = []) :
    (partPieces part cases).flatMap Piece.numbers = [] := by
  have hcases : (cases.map (·.flatMap Piece.numbers)).flatten = [] :=
    List.flatten_eq_nil_iff.mpr (List.forall_mem_map.mpr h)
  rw [partPieces]
  split
  · exact Piece.numbers_field _ _
  · simp only [List.flatMap_cons, List.flatMap_append, Piece.numbers_listed, hcases,
      Piece.numbers_field, Piece.numbers_word, List.flatMap_nil, List.append_nil]

theorem numbers_cutPieces (part : String) (keys : List String)
    {value expr : List Piece} (hvalue : value.flatMap Piece.numbers = [])
    (hexpr : expr.flatMap Piece.numbers = []) :
    (cutPieces part keys value expr).flatMap Piece.numbers = [] := by
  have hkeys : ((keys.map fun key => [Piece.text key]).map
      (·.flatMap Piece.numbers)).flatten = [] := by
    simp
  simp only [cutPieces, List.flatMap_cons, List.flatMap_append, Piece.numbers_group,
    Piece.numbers_listed, hkeys, hvalue, hexpr, Piece.numbers_field,
    Piece.numbers_word, Piece.numbers_name, Piece.numbers_text, List.flatMap_nil,
    List.append_nil]

mutual

theorem numbers_projectionPieces : ∀ (select : Selection) {expr : List Piece}
    (_ : expr.flatMap Piece.numbers = []) (depth : Nat),
    (projectionPieces select expr depth).flatMap Piece.numbers = []
  | ⟨[], _⟩, _, h, _ => h
  | ⟨p :: ps, _⟩, _, h, depth => by
      rw [projectionPieces, Piece.numbers_whenType h, h, List.append_nil]
      exact numbers_cutPieces _ _ (numbers_partPieces _
        (numbers_casePieces (p :: ps) (Piece.numbers_field _ _) (depth + 1))) h

theorem numbers_casePieces : ∀ (props : List (String × Selection))
    {expr : List Piece} (_ : expr.flatMap Piece.numbers = []) (depth : Nat),
    ∀ ps ∈ casePieces props expr depth, ps.flatMap Piece.numbers = []
  | [], _, _, _ => List.forall_mem_nil _
  | (key, sub) :: rest, _, h, depth => by
      rw [casePieces]
      split
      · exact numbers_casePieces rest h depth
      · refine List.forall_mem_cons.mpr ⟨?_, numbers_casePieces rest h depth⟩
        simp only [List.flatMap_cons, Piece.numbers_word, Piece.numbers_text,
          numbers_projectionPieces sub h depth, List.append_nil]

end

/-! ## Joins -/

/-- The pieces of the entry of a linked contract, given those of what is
    selected of it. -/
def entryPieces (j : Join) (contract : List Piece) : List Piece :=
  group (.text "parent" :: .word Piece.comma :: (field j.parent "id"
    ++ .word Piece.comma :: .text "id" :: .word Piece.comma
      :: (field j.name "id" ++ .word Piece.comma :: .text "contract"
        :: .word Piece.comma :: contract)))

/-- The pieces of the condition on the rows a column takes, after `n`
    parameters. -/
def presentPieces (tables : Tables) (j : Join) (n : Nat) : List Piece :=
  field j.name "id" ++ word (.of " IS NOT NULL") ::
    if j.hoisted then .word Piece.conjunction :: j.filter.pieces tables n else []

/-- The pieces of the column of a join, after `n` parameters. -/
def columnPieces (tables : Tables) (j : Join) (select : Selection) (n : Nat) :
    List Piece :=
  let contract :=
    projectionPieces select (word (.of "to_jsonb") :: group [.name j.name]) 0
  word (.of "coalesce") :: (group (word (.of "jsonb_agg")
      :: (group (word (.of "DISTINCT jsonb_build_object") :: entryPieces j contract)
        ++ word (.of " FILTER ")
          :: (group (word (.of "WHERE ") :: presentPieces tables j n)
          ++ [.word Piece.comma, .text "[]", word (.of "::jsonb")])))
    ++ [word (.of " AS "), .name j.name])

/-- The pieces of the line that joins the links table. -/
def linksLine (tables : Tables) (j : Join) : List Piece :=
  word (.of "LEFT JOIN ") :: .name tables.links :: word (.of " AS ") :: .name j.links
    :: word (.of " ON ") :: Piece.attached j.links j.parent j.linkType

/-- The pieces of the line that joins the contracts table, after `n`
    parameters. -/
def contractsLine (tables : Tables) (j : Join) (n : Nat) : List Piece :=
  word (.of "LEFT JOIN ") :: .name tables.contracts :: word (.of " AS ") :: .name j.name
    :: word (.of " ON ") :: (Piece.farEnd j.links j.parent j.name
      ++ .word Piece.conjunction :: (field j.name "active"
        ++ .word Piece.conjunction :: j.condition.pieces tables n))

theorem write_rowProjection (select : Selection) (name : String) :
    write (projectionPieces select (word (.of "to_jsonb") :: group [.name name]) 0)
      = projection select ("to_jsonb(" ++ ident name ++ ")") 0 := by
  have hrow : write (word (.of "to_jsonb") :: group [.name name])
      = "to_jsonb(" ++ ident name ++ ")" := by
    rw [← String.toList_inj]
    simp
  rw [write_projectionPieces, hrow]

theorem write_entryPieces (j : Join) (contract : List Piece) :
    write (entryPieces j contract)
      = "('parent', " ++ ident j.parent ++ ".\"id\", 'id', " ++ ident j.name
        ++ ".\"id\", 'contract', " ++ write contract ++ ")" := by
  have hparent : literal "parent" = "'parent'" := by decide
  have hidText : literal "id" = "'id'" := by decide
  have hcontract : literal "contract" = "'contract'" := by decide
  rw [← String.toList_inj]
  simp [entryPieces, Piece.write_id, hparent, hidText, hcontract, Piece.comma]

theorem write_presentPieces (tables : Tables) (j : Join) (n : Nat) :
    write (presentPieces tables j n)
      = if j.hoisted then
          ident j.name ++ ".\"id\" IS NOT NULL AND "
            ++ write (j.filter.pieces tables n)
        else ident j.name ++ ".\"id\" IS NOT NULL" := by
  rw [presentPieces, ← String.toList_inj]
  cases j.hoisted <;> simp [Piece.write_id, Piece.conjunction]

theorem write_columnPieces (tables : Tables) (j : Join) (select : Selection)
    (n : Nat) :
    write (columnPieces tables j select n)
      = "coalesce(jsonb_agg(DISTINCT jsonb_build_object('parent', "
        ++ ident j.parent ++ ".\"id\", 'id', " ++ ident j.name
        ++ ".\"id\", 'contract', "
        ++ projection select ("to_jsonb(" ++ ident j.name ++ ")") 0
        ++ ")) FILTER (WHERE " ++ write (presentPieces tables j n)
        ++ "), '[]'::jsonb) AS " ++ ident j.name := by
  have hempty : literal "[]" = "'[]'" := by decide
  rw [← write_rowProjection, ← String.toList_inj]
  simp [columnPieces, write_entryPieces, hempty, Piece.comma]

theorem write_linksLine (tables : Tables) (j : Join) :
    write (linksLine tables j)
      = "LEFT JOIN " ++ ident tables.links ++ " AS " ++ ident j.links ++ " ON "
        ++ attached (ident j.links) (ident j.parent) (literal j.linkType) := by
  rw [← Piece.write_attached]
  simp [linksLine, String.append_assoc]

theorem write_contractsLine (tables : Tables) (j : Join) (n : Nat) :
    write (contractsLine tables j n)
      = "LEFT JOIN " ++ ident tables.contracts ++ " AS " ++ ident j.name
        ++ " ON " ++ farEnd (ident j.links) (ident j.parent) (ident j.name)
        ++ " AND " ++ ident j.name ++ ".\"active\" AND "
        ++ write (j.condition.pieces tables n) := by
  rw [← Piece.write_farEnd, ← String.toList_inj]
  simp [contractsLine, Piece.write_active, Piece.conjunction]

/-- A join is written from its pieces, with the parameters of its filter. -/
theorem joinText_eq_write (tables : Tables) (j : Join) (select : Selection)
    (n : Nat) :
    joinText tables j select n
      = ⟨write (columnPieces tables j select n),
         [write (linksLine tables j), write (contractsLine tables j n)],
         j.filter.parameters⟩ := by
  rw [write_columnPieces, write_presentPieces, write_linksLine,
    write_contractsLine]
  unfold joinText Join.condition
  cases j.hoisted with
  | true =>
      simp only [Filter.render_eq_write, if_true, Filter.parameters,
        List.length_nil, Nat.add_zero, List.nil_append]
  | false =>
      simp only [Filter.render_eq_write, Bool.false_eq_true, if_false,
        List.append_nil]

theorem fit_entryPieces (j : Join) {contract : List Piece} (h : Fit contract) :
    Fit (entryPieces j contract) :=
  Fit.group (by simp [h])

theorem fit_presentPieces (tables : Tables) (j : Join) (n : Nat) :
    Fit (presentPieces tables j n) := by
  rw [presentPieces, (Piece.fit_field j.name "id").append_word_iff]
  split
  · exact Fit.word_iff.mpr (j.filter.fit_pieces tables n)
  · exact Fit.nil

theorem fit_columnPieces (tables : Tables) (j : Join) (select : Selection)
    (n : Nat) : Fit (columnPieces tables j select n) := by
  have hentry : Fit (entryPieces j (projectionPieces select
      (word (.of "to_jsonb") :: group [.name j.name]) 0)) :=
    fit_entryPieces j (fit_projectionPieces select (by simp) 0)
  simp [columnPieces, hentry, fit_presentPieces]

theorem fit_linksLine (tables : Tables) (j : Join) : Fit (linksLine tables j) := by
  simp [linksLine]

theorem fit_contractsLine (tables : Tables) (j : Join) (n : Nat) :
    Fit (contractsLine tables j n) := by
  simp [contractsLine, j.condition.fit_pieces tables n]

/-- A join refers to the parameters of its filter once each: in the condition
    on its rows if it is hoisted, and where it is made if not. -/
theorem numbers_joinPieces (tables : Tables) (j : Join) (select : Selection)
    (n : Nat) :
    (columnPieces tables j select n).flatMap Piece.numbers
        ++ ((linksLine tables j).flatMap Piece.numbers
          ++ (contractsLine tables j n).flatMap Piece.numbers)
      = List.range' (n + 1) j.filter.parameters.length := by
  have hrow : (word (.of "to_jsonb") :: group [.name j.name] : List Piece).flatMap
      Piece.numbers = [] := by simp
  have hselected := numbers_projectionPieces select hrow 0
  have hlinks : (linksLine tables j).flatMap Piece.numbers = [] := by
    simp [linksLine, Piece.attached, Piece.attachedAt]
  have hcontracts : (contractsLine tables j n).flatMap Piece.numbers
      = List.range' (n + 1) j.condition.parameters.length := by
    simp [contractsLine, Piece.farEnd, Filter.numbers_pieces]
  have hcolumn : (columnPieces tables j select n).flatMap Piece.numbers
      = if j.hoisted then List.range' (n + 1) j.filter.parameters.length else [] := by
    simp only [columnPieces, entryPieces, presentPieces, List.flatMap_cons,
      List.flatMap_append, Piece.numbers_group, hselected, Piece.numbers_field,
      Piece.numbers_word, Piece.numbers_text, Piece.numbers_name,
      List.flatMap_nil, List.nil_append, List.append_nil]
    split
    · simp [Filter.numbers_pieces]
    · rfl
  -- where the filter is hoisted, no parameter is left for the line of the join
  rw [hcolumn, hlinks, hcontracts, Join.condition]
  cases j.hoisted <;> simp [Filter.parameters]

end Query

end LinkedContracts
