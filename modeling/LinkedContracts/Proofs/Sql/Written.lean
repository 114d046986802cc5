import LinkedContracts.Filter.Sql
import LinkedContracts.Proofs.Sql.Pieces

/-! # The parts of a condition in pieces

    The pieces that values, tests and quantified conditions are written
    from. -/

namespace LinkedContracts

open Sql
open Sql.Piece (word group listed write)

/-! ## Values -/

/-- The pieces of a column of a row. -/
def Sql.Piece.field (row column : String) : List Piece :=
  [.name row, word (.of "."), .name column]

theorem Sql.Piece.write_field (row column : String) :
    write (field row column) = ident row ++ "." ++ ident column := by
  simp [field, String.append_assoc]

@[simp] theorem Sql.Piece.fit_field (row column : String) :
    Piece.Fit (field row column) := by
  simp [field]

open Sql.Piece (field write_field)

/-- A column with a plain name, as it is written. -/
theorem Sql.Piece.write_column (row : String) {column : String}
    (h : ident column = "\"" ++ column ++ "\"") :
    write (field row column) = ident row ++ (".\"" ++ column ++ "\"") := by
  rw [write_field, h, ← String.toList_inj]
  simp

theorem Sql.Piece.write_id (row : String) :
    write (field row "id") = ident row ++ ".\"id\"" :=
  write_column row (by decide)

theorem Sql.Piece.write_active (row : String) :
    write (field row "active") = ident row ++ ".\"active\"" :=
  write_column row (by decide)

theorem Sql.Piece.write_value (row : String) :
    write (field row "value") = ident row ++ ".\"value\"" :=
  write_column row (by decide)

theorem Sql.ident_key : ident "key" = "\"key\"" := by decide

theorem Sql.ident_value : ident "value" = "\"value\"" := by decide

theorem Sql.literal_emptyObject : literal "\x7b\x7d" = "'\x7b\x7d'" := by decide

namespace ValuePath

/-- The pieces of an expression followed by keys. -/
def keyed (base : List Piece) (keys : List String) : List Piece :=
  base ++ keys.flatMap fun key => [word (.of " -> "), .text key]

/-- The pieces of the value as an expression. -/
def pieces (p : ValuePath) : List Piece :=
  match p.scope, p.keys with
  | .row name, [] => word (.of "to_jsonb") :: group [.name name]
  | .row name, column :: rest =>
      if column ∉ columns then [word (.of "NULL::jsonb")]
      else if rest.isEmpty then
        word (.of "coalesce") :: group (word (.of "to_jsonb")
          :: (group (field name column)
            ++ [word (.of ", "), .text "null", word (.of "::jsonb")]))
      else if column = "data" then keyed (field name column) rest
      else keyed (word (.of "to_jsonb") :: group (field name column)) rest
  | .member name, keys => keyed (field name "value") keys

/-- The pieces of the value as an expression for its text. -/
def textPieces (p : ValuePath) : List Piece :=
  group (p.pieces ++ [word (.of " #>> "), .text "\x7b\x7d"])

theorem write_keyed (base : List Piece) (keys : List String) :
    write (keyed base keys) = withKeys (write base) keys := by
  induction keys generalizing base with
  | nil => simp [keyed, withKeys]
  | cons key rest ih =>
      -- the induction moves one key after the other into the base
      have hkey := ih (base ++ [word (.of " -> "), .text key])
      rw [keyed, List.append_assoc] at hkey
      simpa [keyed, withKeys, String.append_assoc] using hkey

theorem write_pieces (p : ValuePath) : write p.pieces = p.sql := by
  obtain ⟨scope, keys⟩ := p
  cases scope with
  | member name =>
      rw [pieces, write_keyed, Piece.write_value]
      rfl
  | row name =>
      cases keys with
      | nil => simp [pieces, sql, ← String.toList_inj]
      | cons column rest =>
          simp only [pieces, sql]
          split
          · simp
          · split
            · have hnull : literal "null" = "'null'" := by decide
              simp [write_field, hnull, ← String.toList_inj]
            · split
              · rw [write_keyed, write_field]
              · have hbase : write (word (.of "to_jsonb") :: group (field name column))
                    = "to_jsonb(" ++ (ident name ++ "." ++ ident column) ++ ")" := by
                  simp [write_field, ← String.toList_inj]
                rw [write_keyed, hbase]

theorem write_textPieces (p : ValuePath) : write p.textPieces = p.textSql := by
  simp [textPieces, textSql, write_pieces, literal_emptyObject, ← String.toList_inj]

end ValuePath

namespace Sql.Piece

/-! ## Conditions -/

/-- The pieces of a condition that holds only where the value has a type. -/
def whenType (expr : List Piece) (type : String) (yes otherwise : List Piece) :
    List Piece :=
  group (word (.of "CASE WHEN jsonb_typeof") :: (group expr
    ++ word (.of " = ") :: .text type :: word (.of " THEN ") :: (yes
      ++ word (.of " ELSE ") :: (otherwise ++ [word (.of " END")]))))

/-- The pieces of the test of a type. -/
def typeTest (expr : List Piece) : JsonType → List Piece
  | .integer =>
      whenType expr "number" (group expr ++ [word (.of "::numeric % 1 = 0")])
        [word (.of "false")]
  | type =>
      word (.of "jsonb_typeof")
        :: (group expr ++ [word (.of " = "), .text type.name])

/-- The pieces of conditions joined by an operator. -/
def joined (operator empty : Word) (parts : List (List Piece)) : List Piece :=
  match parts with
  | [] => [.word empty]
  | parts => group (listed operator parts)

def jsonb : Word := .of "jsonb"

def falsehood : Word := .of "false"

def truth : Word := .of "true"

def comma : Word := .of ", "

def conjunction : Word := .of " AND "

def disjunction : Word := .of " OR "

/-- The pieces of references to `count` parameters after `n` others, as
    values. -/
def valueParameters (n count : Nat) : List (List Piece) :=
  (List.range count).map fun i =>
    [.parameter (n + i) jsonb]

/-- The pieces of the rows of the members of a value. -/
def memberRows (expr : List Piece) (name : String) : Members → List Piece
  | .items =>
      word (.of "jsonb_array_elements") :: (group expr
        ++ word (.of " AS ") :: .name name :: group [.name "value"])
  | .others _ =>
      word (.of "jsonb_each") :: (group expr
        ++ word (.of " AS ") :: .name name
          :: group [.name "key", .word comma, .name "value"])

/-- The pieces of the condition that leaves out known keys. -/
def unknownKey (name : String) : Members → List Piece
  | .items | .others [] => []
  | .others known =>
      field name "key" ++ word (.of " NOT IN ")
        :: (group (listed comma (known.map fun key => [.text key]))
          ++ [.word conjunction])

/-- The pieces of the condition that there are members of a value that meet
    a condition. -/
def memberExists (word_ : Word) (expr : List Piece) (name : String)
    (members : Members) (condition : List Piece) : List Piece :=
  .word word_ :: word (.of " ") :: group (word (.of "SELECT 1 FROM ")
    :: (memberRows expr name members ++ word (.of " WHERE ")
      :: (unknownKey name members ++ condition)))

/-- The pieces of the condition on all or some members, given those of the
    condition on one. -/
def quantified (expr : List Piece) (name : String) (members : Members)
    (quantifier : Quantifier) (condition : List Piece) : List Piece :=
  match quantifier with
  | .all =>
      whenType expr (memberType members)
        (memberExists (.of "NOT EXISTS") expr name members
          (word (.of "NOT ") :: group condition)) [.word truth]
  | .some =>
      whenType expr (memberType members)
        (memberExists (.of "EXISTS") expr name members
          condition) [.word falsehood]

/-- The pieces of the condition that a row of the links table attaches to a
    contract with one of its ends, under the name at that end. -/
def attachedAt (links parent linkType id name : String) : List Piece :=
  group (field links id ++ word (.of " = ") :: (field parent "id"
    ++ .word conjunction :: (field links name
      ++ [word (.of " = "), .text linkType])))

/-- The pieces of the condition that a row of the links table attaches to a
    contract. -/
def attached (links parent linkType : String) : List Piece :=
  group (attachedAt links parent linkType "from_id" "name"
    ++ .word disjunction
      :: attachedAt links parent linkType "to_id" "inverse_name")

/-- The pieces of the condition that a contract is at the far end of a row of
    the links table. -/
def farEnd (links parent joined : String) : List Piece :=
  field joined "id" ++ word (.of " = CASE WHEN ") :: (field links "from_id"
    ++ word (.of " = ") :: (field parent "id"
      ++ word (.of " THEN ") :: (field links "to_id"
        ++ word (.of " ELSE ") :: (field links "from_id" ++ [word (.of " END")]))))

/-- The pieces of the condition that some active contract is linked, given
    those of the condition on it. -/
def linkExists (tables : Tables) (parent linkType join : String)
    (condition : List Piece) : List Piece :=
  word (.of "EXISTS ") :: group (word (.of "SELECT 1 FROM ") :: .name tables.links
    :: word (.of " AS ") :: .name (linksName join) :: word (.of " JOIN ")
    :: .name tables.contracts :: word (.of " AS ") :: .name join :: word (.of " ON ")
    :: (farEnd (linksName join) parent join ++ word (.of " WHERE ")
      :: (attached (linksName join) parent linkType ++ .word conjunction
        :: (field join "active" ++ .word conjunction :: condition))))

/-! ## Writing -/

theorem write_whenType (expr : List Piece) (type : String)
    (yes otherwise : List Piece) (htype : literal type = "'" ++ type ++ "'") :
    write (whenType expr type yes otherwise)
      = Sql.whenType (write expr) type (write yes) (write otherwise) := by
  rw [← String.toList_inj]
  unfold whenType Sql.whenType
  simp [htype]

theorem write_typeTest (expr : List Piece) (type : JsonType) :
    write (typeTest expr type) = Sql.typeTest (write expr) type := by
  have hname : literal type.name = "'" ++ type.name ++ "'" := by
    cases type <;> decide
  cases type with
  | integer =>
      have hwhole : write (group expr ++ [word (.of "::numeric % 1 = 0")])
          = "(" ++ write expr ++ ")::numeric % 1 = 0" := by
        rw [← String.toList_inj]
        simp
      unfold typeTest Sql.typeTest
      rw [write_whenType _ _ _ _ (by decide), hwhole]
      rfl
  | _ =>
      rw [← String.toList_inj]
      unfold typeTest Sql.typeTest
      simp [hname]

theorem write_joined (operator empty : Word) (parts : List (List Piece)) :
    write (joined operator empty parts)
      = Sql.joined operator.text empty.text (parts.map write) := by
  cases parts with
  | nil => exact (write_word empty []).trans (String.append_empty)
  | cons => exact (write_group _).trans (by rw [write_listed]; rfl)

theorem write_typeTests (expr : List Piece) (types : List JsonType) :
    write (joined disjunction falsehood (types.map (typeTest expr)))
      = Sql.typeTests (write expr) types := by
  have htests : (types.map (typeTest expr)).map write
      = types.map (Sql.typeTest (write expr)) := by
    rw [List.map_map]
    exact List.map_congr_left fun type _ => write_typeTest expr type
  rw [write_joined, htests]
  cases types <;> rfl

theorem write_valueParameters (n count : Nat) :
    (valueParameters n count).map write = Sql.valueParameters n count := by
  rw [valueParameters, List.map_map]
  refine List.map_congr_left fun i _ => ?_
  show write [.parameter (n + i) _] = _
  rw [write_parameter, write_nil, String.append_empty, String.append_assoc]
  rfl

theorem write_memberRows (expr : List Piece) (name : String) (members : Members) :
    write (memberRows expr name members)
      = Sql.memberRows (write expr) (ident name) members := by
  rw [← String.toList_inj]
  cases members <;>
    · unfold memberRows Sql.memberRows
      simp [ident_key, ident_value, comma]

theorem write_unknownKey (name : String) (members : Members) :
    write (unknownKey name members) = Sql.unknownKey (ident name) members := by
  cases members with
  | items => rfl
  | others known =>
      cases known with
      | nil => rfl
      | cons key rest =>
          have hknown : ((key :: rest).map fun key => [Piece.text key]).map write
              = (key :: rest).map literal := by
            rw [List.map_map]
            exact List.map_congr_left fun key _ => by simp
          unfold unknownKey Sql.unknownKey
          rw [← String.toList_inj, write_append, write_field, write_word,
            write_append, write_group, write_listed, hknown]
          simp [ident_key, comma, conjunction]

theorem write_memberExists (w : Word) (expr : List Piece) (name : String)
    (members : Members) (condition : List Piece) :
    write (memberExists w expr name members condition)
      = w.text ++ " (SELECT 1 FROM "
        ++ Sql.memberRows (write expr) (ident name) members ++ " WHERE "
        ++ Sql.unknownKey (ident name) members ++ write condition ++ ")" := by
  rw [← String.toList_inj, ← write_memberRows, ← write_unknownKey]
  unfold memberExists
  simp

theorem write_quantified (expr : List Piece) (name : String) (members : Members)
    (quantifier : Quantifier) (condition : List Piece) :
    write (quantified expr name members quantifier condition)
      = Sql.quantified (write expr) (ident name) members quantifier
        (write condition) := by
  have htype : literal (memberType members) = "'" ++ memberType members ++ "'" := by
    cases members with
    | items => decide
    | others => exact (by decide : literal "object" = "'" ++ "object" ++ "'")
  cases quantifier with
  | all =>
      have hnot : write (word (.of "NOT ") :: group condition)
          = "NOT (" ++ write condition ++ ")" := by
        rw [← String.toList_inj]
        simp
      refine (write_whenType _ _ _ _ htype).trans ?_
      rw [write_memberExists, hnot]
      rfl
  | some =>
      refine (write_whenType _ _ _ _ htype).trans ?_
      rw [write_memberExists]
      rfl

theorem write_attached (links parent linkType : String) :
    write (attached links parent linkType)
      = Sql.attached (ident links) (ident parent) (literal linkType) := by
  have hend (id name : String) (hid : ident id = "\"" ++ id ++ "\"")
      (hname : ident name = "\"" ++ name ++ "\"") :
      write (attachedAt links parent linkType id name)
        = "(" ++ ident links ++ ".\"" ++ id ++ "\" = " ++ ident parent
          ++ ".\"id\" AND " ++ ident links ++ ".\"" ++ name ++ "\" = "
          ++ literal linkType ++ ")" := by
    rw [← String.toList_inj]
    unfold attachedAt
    simp [write_column _ hid, write_column _ hname, write_id, conjunction]
  rw [attached, write_group, write_append, write_word,
    hend _ _ (by decide) (by decide), hend _ _ (by decide) (by decide),
    ← String.toList_inj]
  unfold Sql.attached
  simp [disjunction, toString]

theorem write_farEnd (links parent joined : String) :
    write (farEnd links parent joined)
      = Sql.farEnd (ident links) (ident parent) (ident joined) := by
  have hfrom : write (field links "from_id") = ident links ++ ".\"from_id\"" :=
    write_column links (by decide)
  have hto : write (field links "to_id") = ident links ++ ".\"to_id\"" :=
    write_column links (by decide)
  rw [← String.toList_inj]
  unfold farEnd Sql.farEnd
  simp [write_id, hfrom, hto, toString]

theorem write_linkExists (tables : Tables) (parent linkType join : String)
    (condition : List Piece) :
    write (linkExists tables parent linkType join condition)
      = Sql.linkExists tables parent linkType join (write condition) := by
  rw [← String.toList_inj]
  unfold linkExists Sql.linkExists
  simp [write_active, write_farEnd, write_attached, conjunction]

end Sql.Piece

/-! ## Fitting together -/

open Sql.Piece (Fit)

namespace ValuePath

theorem fit_keyed {base : List Piece} (h : Fit base) (keys : List String) :
    Fit (keyed base keys) := by
  induction keys generalizing base with
  | nil => simpa [keyed] using h
  | cons key rest ih =>
      have hkey : Fit (base ++ [word (.of " -> "), .text key]) := by simp [h]
      simpa [keyed] using ih hkey

theorem fit_pieces (p : ValuePath) : Fit p.pieces := by
  obtain ⟨scope, keys⟩ := p
  cases scope with
  | member name => exact fit_keyed (Piece.fit_field _ _) _
  | row name =>
      cases keys with
      | nil => simp [pieces]
      | cons column rest =>
          simp only [pieces]
          split
          · simp
          · split
            · simp
            · split
              · exact fit_keyed (Piece.fit_field _ _) _
              · exact fit_keyed (by simp) _

@[simp] theorem fit_textPieces (p : ValuePath) : Fit p.textPieces := by
  simp [textPieces, p.fit_pieces]

end ValuePath

namespace Sql.Piece

section

variable {expr condition : List Piece}

theorem fit_whenType (hexpr : Fit expr) (type : String)
    {yes otherwise : List Piece} (hyes : Fit yes) (hotherwise : Fit otherwise) :
    Fit (whenType expr type yes otherwise) := by
  simp [whenType, hexpr, hyes, hotherwise]

theorem fit_typeTest (hexpr : Fit expr) (type : JsonType) :
    Fit (typeTest expr type) := by
  cases type with
  | integer => exact fit_whenType hexpr _ (by simp [hexpr]) (by simp)
  | _ => simp [typeTest, hexpr]

theorem fit_joined (operator empty : Word) {parts : List (List Piece)}
    (h : ∀ ps ∈ parts, Fit ps) : Fit (joined operator empty parts) := by
  cases parts with
  | nil => simp [joined]
  | cons => exact (Fit.listed operator h).group

theorem fit_valueParameters (n count : Nat) :
    ∀ ps ∈ valueParameters n count, Fit ps :=
  List.forall_mem_map.mpr fun _ _ => Fit.parameter _ _

theorem fit_memberRows (hexpr : Fit expr) (name : String) (members : Members) :
    Fit (memberRows expr name members) := by
  cases members <;> simp [memberRows, hexpr]

theorem fit_unknownKey_append (name : String) (members : Members)
    (h : Fit condition) : Fit (unknownKey name members ++ condition) := by
  cases members with
  | items => exact h
  | others known =>
      cases known with
      | nil => exact h
      | cons key rest =>
          have hknown : ∀ ps ∈ (key :: rest).map fun key => [Piece.text key], Fit ps :=
            List.forall_mem_map.mpr fun _ _ => Fit.text _
          simp only [unknownKey, List.append_assoc, List.cons_append,
            List.nil_append, (fit_field name "key").append_word_iff,
            (Fit.listed comma hknown).group_append_iff, Fit.word_iff, h]

theorem fit_memberExists (w : Word) (hexpr : Fit expr) (name : String)
    (members : Members) (h : Fit condition) :
    Fit (memberExists w expr name members condition) := by
  simp [memberExists, fit_memberRows hexpr, fit_unknownKey_append _ _ h]

theorem fit_quantified (hexpr : Fit expr) (name : String) (members : Members)
    (quantifier : Quantifier) (h : Fit condition) :
    Fit (quantified expr name members quantifier condition) := by
  cases quantifier with
  | all =>
      exact fit_whenType hexpr _
        (fit_memberExists _ hexpr _ _ (by simp [h])) (by simp)
  | some => exact fit_whenType hexpr _ (fit_memberExists _ hexpr _ _ h) (by simp)

@[simp] theorem fit_attachedAt (links parent linkType id name : String) :
    Fit (attachedAt links parent linkType id name) := by
  simp [attachedAt]

@[simp] theorem fit_attached (links parent linkType : String) :
    Fit (attached links parent linkType) := by
  simp [attached]

@[simp] theorem fit_farEnd (links parent joined : String) :
    Fit (farEnd links parent joined) := by
  simp [farEnd]

theorem fit_linkExists (tables : Tables) (parent linkType join : String)
    (h : Fit condition) :
    Fit (linkExists tables parent linkType join condition) := by
  simp [linkExists, h]

end

end Sql.Piece

/-! ## Parameters -/

namespace Sql.Piece

theorem numbers_joined (operator empty : Word) (parts : List (List Piece)) :
    (joined operator empty parts).flatMap numbers
      = (parts.map (·.flatMap numbers)).flatten := by
  cases parts with
  | nil => simp [joined]
  | cons => exact (numbers_group _).trans (numbers_listed _ _)

theorem flatMap_joined_congr {α : Type} (f : Piece → List α) (operator empty : Word)
    {parts parts' : List (List Piece)}
    (h : parts.map (·.flatMap f) = parts'.map (·.flatMap f)) :
    (joined operator empty parts).flatMap f
      = (joined operator empty parts').flatMap f := by
  cases parts with
  | nil =>
      obtain rfl : parts' = [] := List.map_eq_nil_iff.mp h.symm
      rfl
  | cons ps rest =>
      cases parts' with
      | nil => cases h
      | cons ps' rest' =>
          show (group (listed _ _)).flatMap f = (group (listed _ _)).flatMap f
          rw [flatMap_group, flatMap_group, flatMap_listed, flatMap_listed, h]

@[simp] theorem numbers_field (row column : String) :
    (field row column).flatMap numbers = [] := by
  simp [field]

end Sql.Piece

namespace ValuePath

theorem flatMap_keyed {α : Type} (f : Piece → List α) (base : List Piece)
    (keys : List String) :
    (keyed base keys).flatMap f
      = base.flatMap f
        ++ keys.flatMap fun key => f (word (.of " -> ")) ++ f (.text key) := by
  simp [keyed, List.flatMap_assoc]

@[simp] theorem numbers_pieces (p : ValuePath) :
    p.pieces.flatMap Piece.numbers = [] := by
  obtain ⟨scope, keys⟩ := p
  cases scope with
  | member name => simp [pieces, flatMap_keyed]
  | row name =>
      cases keys with
      | nil => simp [pieces]
      | cons column rest =>
          simp only [pieces]
          split
          · simp
          · split
            · simp
            · split <;> simp [flatMap_keyed]

@[simp] theorem numbers_textPieces (p : ValuePath) :
    p.textPieces.flatMap Piece.numbers = [] := by
  simp [textPieces]

end ValuePath

namespace Sql.Piece

@[simp] theorem numbers_typeTests (p : ValuePath) (types : List JsonType) :
    (joined disjunction falsehood (types.map (typeTest p.pieces))).flatMap numbers
      = [] := by
  have hone (type : JsonType) : (typeTest p.pieces type).flatMap numbers = [] := by
    cases type <;> simp [typeTest, whenType]
  rw [numbers_joined, List.map_map]
  exact List.flatten_eq_nil_iff.mpr
    (List.forall_mem_map.mpr fun type _ => hone type)

theorem numbers_valueParameters (n count : Nat) :
    ((valueParameters n count).map (·.flatMap numbers)).flatten
      = List.range' (n + 1) count := by
  have hone (i : Nat) :
      ([.parameter (n + i) jsonb] : List Piece).flatMap numbers = [n + 1 + i] := by
    simp [Nat.add_right_comm]
  rw [valueParameters, List.map_map, List.range'_eq_map_range,
    List.map_eq_flatMap (f := fun i => n + 1 + i), List.flatMap_def]
  exact congrArg List.flatten (List.map_congr_left fun i _ => hone i)

@[simp] theorem numbers_unknownKey (name : String) (members : Members) :
    (unknownKey name members).flatMap numbers = [] := by
  cases members with
  | items => rfl
  | others known =>
      cases known with
      | nil => rfl
      | cons key rest => simp [unknownKey, numbers_listed]

theorem numbers_whenType {expr : List Piece} (h : expr.flatMap numbers = [])
    (type : String) (yes otherwise : List Piece) :
    (whenType expr type yes otherwise).flatMap numbers
      = yes.flatMap numbers ++ otherwise.flatMap numbers := by
  simp [whenType, h]

theorem numbers_quantified {expr : List Piece} (h : expr.flatMap numbers = [])
    (name : String) (members : Members) (quantifier : Quantifier)
    (condition : List Piece) :
    (quantified expr name members quantifier condition).flatMap numbers
      = condition.flatMap numbers := by
  have hrows (w : Word) (inner : List Piece) :
      (memberExists w expr name members inner).flatMap numbers
        = inner.flatMap numbers := by
    cases members <;> simp [memberExists, memberRows, h]
  cases quantifier <;> simp [quantified, numbers_whenType h, hrows]

theorem numbers_linkExists (tables : Tables) (parent linkType join : String)
    (condition : List Piece) :
    (linkExists tables parent linkType join condition).flatMap numbers
      = condition.flatMap numbers := by
  simp [linkExists, attached, attachedAt, farEnd]

end Sql.Piece

end LinkedContracts
