import LinkedContracts.Proofs.Filter.Condition
import LinkedContracts.Proofs.Sql.Written

/-! # The pieces of a filter

    The condition of a filter is written from pieces that fit together.  They
    refer to its parameters in order, and but for the numbers of these do not
    depend on how many parameters stand before. -/

namespace LinkedContracts

open Sql
open Sql.Piece (word group listed write)

/-- A comparison as a word. -/
def Comparison.word (c : Comparison) : Word :=
  ⟨c.sql, by cases c <;> decide⟩

namespace Filter

/-- The pieces of the comparison of an expression with the parameter after `n`
    others. -/
def compared (expr : List Piece) (operator : Word) (n : Nat) (type : Word) :
    List Piece :=
  expr ++ [word (.of " "), .word operator, word (.of " "), .parameter n type]

def characters : Word := .of "text"

def numeric : Word := .of "numeric"

def integer : Word := .of "integer"

/-- The operator that matches a pattern. -/
def matching (ignoreCase : Bool) : Word :=
  if ignoreCase then (.of "~*") else (.of "~")

mutual

/-- The pieces of the condition of a filter, after `n` parameters. -/
def pieces (tables : Tables) : Filter → Nat → List Piece
  | always, _ => [.word Piece.truth]
  | never, _ => [.word Piece.falsehood]
  | conj fs, n =>
      Piece.joined Piece.conjunction Piece.truth (piecesAll tables fs n)
  | disj fs, n =>
      Piece.joined Piece.disjunction Piece.falsehood (piecesAll tables fs n)
  | neg f, n => word (.of "NOT ") :: group (pieces tables f n)
  | present p, _ => group (p.pieces ++ [word (.of " IS NOT NULL")])
  | typeIs p types, _ =>
      Piece.joined Piece.disjunction Piece.falsehood
        (types.map (Piece.typeTest p.pieces))
  | equals p _, n =>
      group (compared p.pieces (.of "=") n Piece.jsonb)
  | oneOf _ [], _ => [.word Piece.falsehood]
  | oneOf p values, n =>
      group (p.pieces ++ word (.of " IN ")
        :: group (listed Piece.comma (Piece.valueParameters n values.length)))
  | pattern p re, n =>
      group (compared p.textPieces (matching re.ignoresCase) n characters)
  | bound p op _, n =>
      Piece.whenType p.pieces "number"
        (compared (group p.pieces ++ [word (.of "::numeric")]) op.word n numeric)
        [.word Piece.falsehood]
  | length p op _, n =>
      group (compared (word (.of "char_length") :: p.textPieces) op.word n integer)
  | itemCount p op _, n =>
      Piece.whenType p.pieces "array"
        (compared (word (.of "jsonb_array_length") :: group p.pieces) op.word n integer)
        [.word Piece.falsehood]
  | fullText p _, n =>
      group (word (.of "to_tsvector")
        :: (group (.text "english" :: .word Piece.comma :: p.textPieces)
          ++ word (.of " @@ to_tsquery")
            :: group [.text "english", .word Piece.comma,
              .parameter n characters]))
  | each p members quantifier name f, n =>
      Piece.quantified p.pieces name members quantifier (pieces tables f n)
  | linked parent linkType join f, n =>
      Piece.linkExists tables parent linkType join (pieces tables f n)

/-- The pieces of the conditions of filters, after `n` parameters. -/
def piecesAll (tables : Tables) : List Filter → Nat → List (List Piece)
  | [], _ => []
  | f :: rest, n =>
      pieces tables f n :: piecesAll tables rest (n + f.parameters.length)

end

/-! ## Writing -/

theorem write_compared (expr : List Piece) (operator : Word) (n : Nat)
    (type : Word) :
    write (compared expr operator n type)
      = write expr ++ (" " ++ operator.text ++ " ") ++ parameter n ++ "::"
        ++ type.text := by
  simp [compared, String.append_assoc]

mutual

/-- A filter is written from its pieces. -/
theorem render_eq_write (tables : Tables) : ∀ (f : Filter) (n : Nat),
    f.render tables n = (write (f.pieces tables n), f.parameters)
  | always, _ | never, _ | oneOf _ [], _ => rfl
  -- each `show` is one step of `render`
  | conj fs, n => by
      have hparts := Piece.write_joined Piece.conjunction Piece.truth
        (piecesAll tables fs n)
      show (let (parts, params) := renderAll tables fs n
        (Sql.joined " AND " "true" parts, params)) = _
      rw [renderAll_eq_write tables fs n]
      exact Prod.ext hparts.symm rfl
  | disj fs, n => by
      have hparts := Piece.write_joined Piece.disjunction Piece.falsehood
        (piecesAll tables fs n)
      show (let (parts, params) := renderAll tables fs n
        (Sql.joined " OR " "false" parts, params)) = _
      rw [renderAll_eq_write tables fs n]
      exact Prod.ext hparts.symm rfl
  | neg f, n => by
      show (let (condition, params) := render tables f n
        ("NOT (" ++ condition ++ ")", params)) = _
      rw [render_eq_write tables f n]
      refine Prod.ext ?_ rfl
      rw [← String.toList_inj]
      simp [pieces]
  | present p, _ => by
      refine Prod.ext ?_ rfl
      show "(" ++ p.sql ++ " IS NOT NULL)" = _
      rw [← String.toList_inj, ← p.write_pieces]
      simp [pieces]
  | typeIs p types, _ => by
      refine Prod.ext ?_ rfl
      show typeTests p.sql types = _
      rw [← p.write_pieces]
      exact (Piece.write_typeTests p.pieces types).symm
  | equals p _, n => by
      refine Prod.ext ?_ rfl
      show "(" ++ p.sql ++ " = " ++ parameter n ++ "::jsonb)" = _
      rw [pieces, Piece.write_group, write_compared, p.write_pieces,
        ← String.toList_inj]
      simp [Piece.jsonb]
  | oneOf p (v :: vs), n => by
      refine Prod.ext ?_ rfl
      show "(" ++ p.sql ++ " IN ("
        ++ joinWith ", " (valueParameters n (v :: vs).length) ++ "))" = _
      rw [← Piece.write_valueParameters, ← p.write_pieces, ← String.toList_inj]
      simp [pieces, Piece.comma]
  | pattern p re, n => by
      refine Prod.ext ?_ rfl
      show "(" ++ p.textSql ++ (if re.ignoresCase then " ~* " else " ~ ")
        ++ parameter n ++ "::text)" = _
      rw [pieces, Piece.write_group, write_compared, p.write_textPieces,
        ← String.toList_inj, matching]
      cases re.ignoresCase <;> simp [characters]
  | bound p op _, n => by
      refine Prod.ext ?_ rfl
      have hyes : write (compared (group p.pieces ++ [word (.of "::numeric")]) op.word n
          numeric) = "(" ++ p.sql ++ ")::numeric " ++ op.sql ++ " " ++ parameter n
            ++ "::numeric" := by
        rw [write_compared, ← String.toList_inj]
        simp [p.write_pieces, numeric, Comparison.word]
      rw [pieces, Piece.write_whenType _ _ _ _ (by decide), hyes, p.write_pieces]
      rfl
  | length p op _, n => by
      refine Prod.ext ?_ rfl
      show "(char_length" ++ p.textSql ++ " " ++ op.sql ++ " " ++ parameter n
        ++ "::integer)" = _
      rw [pieces, Piece.write_group, write_compared, Piece.write_word,
        p.write_textPieces, ← String.toList_inj]
      simp [integer, Comparison.word]
  | itemCount p op _, n => by
      refine Prod.ext ?_ rfl
      have hyes : write (compared (word (.of "jsonb_array_length") :: group p.pieces)
          op.word n integer) = "jsonb_array_length(" ++ p.sql ++ ") " ++ op.sql
            ++ " " ++ parameter n ++ "::integer" := by
        rw [write_compared, ← String.toList_inj]
        simp [p.write_pieces, integer, Comparison.word]
      rw [pieces, Piece.write_whenType _ _ _ _ (by decide), hyes, p.write_pieces]
      rfl
  | fullText p _, n => by
      refine Prod.ext ?_ rfl
      have henglish : literal "english" = "'english'" := by decide
      show "(to_tsvector('english', " ++ p.textSql
        ++ ") @@ to_tsquery('english', " ++ parameter n ++ "::text))" = _
      rw [← p.write_textPieces, ← String.toList_inj]
      simp [pieces, henglish, Piece.comma, characters]
  | each p members quantifier name f, n => by
      show (let (condition, params) := render tables f n
        (quantified p.sql (ident name) members quantifier condition, params)) = _
      rw [render_eq_write tables f n, pieces, Piece.write_quantified,
        p.write_pieces]
      rfl
  | linked parent linkType join f, n => by
      show (let (condition, params) := render tables f n
        (linkExists tables parent linkType join condition, params)) = _
      rw [render_eq_write tables f n, pieces, Piece.write_linkExists]
      rfl

/-- Filters are written from their pieces. -/
theorem renderAll_eq_write (tables : Tables) : ∀ (fs : List Filter) (n : Nat),
    renderAll tables fs n
      = ((piecesAll tables fs n).map write, parametersAll fs)
  | [], _ => rfl
  | f :: rest, n => by
      show (let (part, params) := render tables f n
        let (parts, more) := renderAll tables rest (n + params.length)
        (part :: parts, params ++ more)) = _
      rw [render_eq_write tables f n]
      show (let (parts, more) := renderAll tables rest (n + f.parameters.length)
        (write (f.pieces tables n) :: parts, f.parameters ++ more)) = _
      rw [renderAll_eq_write tables rest]
      rfl

end

/-! ## Fitting together -/

theorem fit_compared {expr : List Piece} (h : Piece.Fit expr) (operator : Word)
    (n : Nat) (type : Word) : Piece.Fit (compared expr operator n type) := by
  simp [compared, h]

mutual

theorem fit_pieces (tables : Tables) : ∀ (f : Filter) (n : Nat),
    Piece.Fit (f.pieces tables n)
  | always, _ | never, _ | oneOf _ [], _ => by simp [pieces]
  | conj fs, n | disj fs, n => Piece.fit_joined _ _ (fit_piecesAll tables fs n)
  | neg f, n => by simp [pieces, fit_pieces tables f n]
  | present p, _ => by simp [pieces, p.fit_pieces]
  | typeIs p types, _ =>
      Piece.fit_joined _ _ (List.forall_mem_map.mpr fun type _ =>
        Piece.fit_typeTest p.fit_pieces type)
  | equals p _, n => (fit_compared p.fit_pieces _ n _).group
  | oneOf p (v :: vs), n => by
      have hlist := Piece.Fit.listed Piece.comma
        (Piece.fit_valueParameters n (v :: vs).length)
      simp only [pieces, p.fit_pieces.append_word_iff, hlist.group,
        Piece.Fit.group]
  | pattern p _, n => (fit_compared p.fit_textPieces _ n _).group
  | bound p _ _, n =>
      Piece.fit_whenType p.fit_pieces _
        (fit_compared (by simp [p.fit_pieces]) _ n _) (by simp)
  | length p _ _, n => (fit_compared (by simp) _ n _).group
  | itemCount p _ _, n =>
      Piece.fit_whenType p.fit_pieces _
        (fit_compared (by simp [p.fit_pieces]) _ n _) (by simp)
  | fullText p _, n => by simp [pieces]
  | each p members quantifier name f, n =>
      Piece.fit_quantified p.fit_pieces name members quantifier
        (fit_pieces tables f n)
  | linked parent linkType join f, n =>
      Piece.fit_linkExists tables parent linkType join (fit_pieces tables f n)

theorem fit_piecesAll (tables : Tables) : ∀ (fs : List Filter) (n : Nat),
    ∀ ps ∈ piecesAll tables fs n, Piece.Fit ps
  | [], _ => List.forall_mem_nil _
  | f :: rest, n =>
      List.forall_mem_cons.mpr ⟨fit_pieces tables f n, fit_piecesAll tables rest _⟩

end

/-! ## Parameters -/

@[simp] theorem numbers_compared (expr : List Piece) (operator : Word) (n : Nat)
    (type : Word) :
    (compared expr operator n type).flatMap Piece.numbers
      = expr.flatMap Piece.numbers ++ [n + 1] := by
  simp [compared]

mutual

/-- A filter refers to its parameters once each and in order. -/
theorem numbers_pieces (tables : Tables) : ∀ (f : Filter) (n : Nat),
    (f.pieces tables n).flatMap Piece.numbers
      = List.range' (n + 1) f.parameters.length
  | always, _ | never, _ | oneOf _ [], _ => by simp [pieces, parameters]
  | conj fs, n | disj fs, n =>
      (Piece.numbers_joined _ _ _).trans (numbers_piecesAll tables fs n)
  | neg f, n => by
      simpa [pieces, parameters] using numbers_pieces tables f n
  | present p, _ => by simp [pieces, parameters]
  | typeIs p types, _ => Piece.numbers_typeTests p types
  | equals p _, n | pattern p _, n | length p _ _, n => by
      simp [pieces, parameters]
  | oneOf p (v :: vs), n => by
      have hvalues := Piece.numbers_valueParameters n (v :: vs).length
      simpa [pieces, parameters, Piece.numbers_listed] using hvalues
  | bound p _ _, n | itemCount p _ _, n => by
      simp [pieces, parameters, Piece.numbers_whenType]
  | fullText p _, n => by simp [pieces, parameters]
  | each p members quantifier name f, n =>
      (Piece.numbers_quantified p.numbers_pieces name members quantifier _).trans
        (numbers_pieces tables f n)
  | linked parent linkType join f, n =>
      (Piece.numbers_linkExists tables parent linkType join _).trans
        (numbers_pieces tables f n)

theorem numbers_piecesAll (tables : Tables) : ∀ (fs : List Filter) (n : Nat),
    ((piecesAll tables fs n).map (·.flatMap Piece.numbers)).flatten
      = List.range' (n + 1) (parametersAll fs).length
  | [], _ => rfl
  | f :: rest, n => by
      rw [piecesAll, List.map_cons, List.flatten_cons, numbers_pieces tables f n,
        numbers_piecesAll tables rest, parametersAll, List.length_append,
        Nat.add_right_comm, List.range'_append_1]

end

theorem unnumbered_compared (expr : List Piece) (operator : Word) (n m : Nat)
    (type : Word) :
    (compared expr operator n type).flatMap Piece.unnumbered
      = (compared expr operator m type).flatMap Piece.unnumbered := by
  rw [compared, compared, List.flatMap_append, List.flatMap_append]
  rfl

mutual

/-- But for the numbers of its parameters, a filter is written alike after
    however many. -/
theorem unnumbered_pieces (tables : Tables) : ∀ (f : Filter) (n m : Nat),
    (f.pieces tables n).flatMap Piece.unnumbered
      = (f.pieces tables m).flatMap Piece.unnumbered
  | always, _, _ | never, _, _ | oneOf _ [], _, _ | present _, _, _
  | typeIs _ _, _, _ => rfl
  | conj fs, n, m | disj fs, n, m =>
      Piece.flatMap_joined_congr _ _ _ (unnumbered_piecesAll tables fs n m)
  | neg f, n, m => by
      simp only [pieces, List.flatMap_cons, Piece.flatMap_group,
        unnumbered_pieces tables f n m]
  | equals p _, n, m | pattern p _, n, m | length p _ _, n, m => by
      simp only [pieces, Piece.flatMap_group, unnumbered_compared _ _ n m]
  | oneOf p (v :: vs), n, m => by
      have hvalues :
          (Piece.valueParameters n (v :: vs).length).map (·.flatMap Piece.unnumbered)
            = (Piece.valueParameters m (v :: vs).length).map
              (·.flatMap Piece.unnumbered) := by
        rw [Piece.valueParameters, Piece.valueParameters, List.map_map,
          List.map_map]
        rfl
      simp only [pieces, Piece.flatMap_group, List.flatMap_append,
        List.flatMap_cons, Piece.flatMap_listed, hvalues]
  | bound p _ _, n, m | itemCount p _ _, n, m => by
      simp only [pieces, Piece.whenType, Piece.flatMap_group, List.flatMap_append,
        List.flatMap_cons, unnumbered_compared _ _ n m]
  | fullText p _, n, m => by
      simp only [pieces, Piece.flatMap_group, List.flatMap_append,
        List.flatMap_cons]
      rfl
  | each p members quantifier name f, n, m => by
      cases quantifier <;>
        simp only [pieces, Piece.quantified, Piece.whenType, Piece.memberExists,
          Piece.flatMap_group, List.flatMap_append, List.flatMap_cons,
          unnumbered_pieces tables f n m]
  | linked parent linkType join f, n, m => by
      simp only [pieces, Piece.linkExists, Piece.flatMap_group,
        List.flatMap_append, List.flatMap_cons, unnumbered_pieces tables f n m]

theorem unnumbered_piecesAll (tables : Tables) : ∀ (fs : List Filter) (n m : Nat),
    (piecesAll tables fs n).map (·.flatMap Piece.unnumbered)
      = (piecesAll tables fs m).map (·.flatMap Piece.unnumbered)
  | [], _, _ => rfl
  | f :: rest, n, m => by
      simp only [piecesAll, List.map_cons, unnumbered_pieces tables f n m,
        unnumbered_piecesAll tables rest (n + f.parameters.length)
          (m + f.parameters.length)]

end

end Filter

end LinkedContracts
