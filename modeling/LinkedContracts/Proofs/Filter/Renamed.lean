import LinkedContracts.Proofs.Filter.Pieces

/-! # Filters under other names

    The names in a filter can be replaced: those of the rows and members it
    binds, its link types, the keys it knows and the keys of its paths, save
    for the first key of a row, which decides how the path is written.  With
    nothing between quotes, filters that differ in these names only are
    written alike. -/

namespace LinkedContracts

open Sql
open Sql.Piece (word group listed write)

/-! ## Without names -/

/-- A path without its names. -/
def ValuePath.blank : ValuePath → ValuePath
  | ⟨.row _, []⟩ => ⟨.row "", []⟩
  | ⟨.row _, column :: rest⟩ => ⟨.row "", column :: rest.map fun _ => ""⟩
  | ⟨.member _, keys⟩ => ⟨.member "", keys.map fun _ => ""⟩

/-- Members without the keys that are known. -/
def Members.blank : Members → Members
  | .items => .items
  | .others known => .others (known.map fun _ => "")

namespace Filter

mutual

/-- A filter without its names. -/
def blank : Filter → Filter
  | always => always
  | never => never
  | conj fs => conj (blankAll fs)
  | disj fs => disj (blankAll fs)
  | neg f => neg (blank f)
  | present p => present p.blank
  | typeIs p types => typeIs p.blank types
  | equals p value => equals p.blank value
  | oneOf p values => oneOf p.blank values
  | pattern p re => pattern p.blank re
  | bound p op value => bound p.blank op value
  | length p op value => length p.blank op value
  | itemCount p op value => itemCount p.blank op value
  | fullText p term => fullText p.blank term
  | each p members quantifier _ f =>
      each p.blank members.blank quantifier "" (blank f)
  | linked _ _ _ f => linked "" "" "" (blank f)

/-- Filters without their names. -/
def blankAll : List Filter → List Filter
  | [] => []
  | f :: rest => blank f :: blankAll rest

end

mutual

theorem parameters_blank : ∀ f : Filter, f.blank.parameters = f.parameters
  | conj fs | disj fs => parameters_blankAll fs
  | neg f | each _ _ _ _ f | linked _ _ _ f => parameters_blank f
  | always | never | present _ | typeIs _ _ | equals _ _ | oneOf _ _
  | pattern _ _ | bound _ _ _ | length _ _ _ | itemCount _ _ _
  | fullText _ _ => rfl

theorem parameters_blankAll : ∀ fs : List Filter,
    parametersAll (blankAll fs) = parametersAll fs
  | [] => rfl
  | f :: rest =>
      congrArg₂ (· ++ ·) (parameters_blank f) (parameters_blankAll rest)

end

end Filter

/-! ## Nothing between quotes -/

namespace ValuePath

theorem bare_keyed {base base' : List Piece}
    (h : base.flatMap Piece.bare = base'.flatMap Piece.bare)
    (keys : List String) :
    (keyed base (keys.map fun _ => "")).flatMap Piece.bare
      = (keyed base' keys).flatMap Piece.bare := by
  rw [flatMap_keyed, flatMap_keyed, h, List.flatMap_map]
  rfl

theorem bare_blank (p : ValuePath) :
    p.blank.pieces.flatMap Piece.bare = p.pieces.flatMap Piece.bare := by
  obtain ⟨scope, keys⟩ := p
  cases scope with
  | member name => exact bare_keyed rfl keys
  | row name =>
      cases keys with
      | nil => rfl
      | cons column rest =>
          -- the first key is kept, and so is the way the path is written
          simp only [blank, pieces, List.isEmpty_map]
          split
          · rfl
          · split
            · rfl
            · split
              · exact bare_keyed rfl rest
              · exact bare_keyed rfl rest

theorem bareText_blank (p : ValuePath) :
    p.blank.textPieces.flatMap Piece.bare = p.textPieces.flatMap Piece.bare := by
  simp only [textPieces, Piece.flatMap_group, List.flatMap_append, p.bare_blank]

end ValuePath

namespace Sql.Piece

theorem bare_whenType {expr expr' yes yes' : List Piece}
    (hexpr : expr.flatMap bare = expr'.flatMap bare)
    (hyes : yes.flatMap bare = yes'.flatMap bare) (type type' : String)
    (otherwise : List Piece) :
    (whenType expr type yes otherwise).flatMap bare
      = (whenType expr' type' yes' otherwise).flatMap bare := by
  simp only [whenType, flatMap_group, List.flatMap_append, List.flatMap_cons,
    hexpr, hyes, bare_text]

theorem bare_typeTest {expr expr' : List Piece}
    (h : expr.flatMap bare = expr'.flatMap bare) (type : JsonType) :
    (typeTest expr type).flatMap bare = (typeTest expr' type).flatMap bare := by
  cases type with
  | integer =>
      refine bare_whenType h ?_ _ _ _
      simp only [flatMap_group, List.flatMap_append, h]
  | _ =>
      simp only [typeTest, flatMap_group, List.flatMap_append, List.flatMap_cons, h]

theorem bare_quantified {expr expr' condition condition' : List Piece}
    (hexpr : expr.flatMap bare = expr'.flatMap bare)
    (hcondition : condition.flatMap bare = condition'.flatMap bare)
    (name name' : String) (members : Members) (quantifier : Quantifier) :
    (quantified expr name members.blank quantifier condition).flatMap bare
      = (quantified expr' name' members quantifier condition').flatMap bare := by
  have hkeys : (unknownKey name members.blank).flatMap bare
      = (unknownKey name' members).flatMap bare := by
    cases members with
    | items => rfl
    | others known =>
        cases known with
        | nil => rfl
        | cons key rest =>
            simp only [Members.blank, List.map_cons, unknownKey,
              List.flatMap_append, List.flatMap_cons, flatMap_group,
              flatMap_listed, List.map_map]
            rfl
  have hsource : (memberRows expr name members.blank).flatMap bare
      = (memberRows expr' name' members).flatMap bare := by
    cases members <;>
      simp only [memberRows, Members.blank, flatMap_group, List.flatMap_append,
        List.flatMap_cons, hexpr, bare_name]
  have hrows (w : Word) {inner inner' : List Piece}
      (hinner : inner.flatMap bare = inner'.flatMap bare) :
      (memberExists w expr name members.blank inner).flatMap bare
        = (memberExists w expr' name' members inner').flatMap bare := by
    simp only [memberExists, flatMap_group, List.flatMap_append,
      List.flatMap_cons, hsource, hkeys, hinner]
  cases quantifier with
  | all =>
      refine bare_whenType hexpr (hrows _ ?_) _ _ _
      simp only [List.flatMap_cons, flatMap_group, hcondition]
  | some => exact bare_whenType hexpr (hrows _ hcondition) _ _ _

theorem bare_linkExists {condition condition' : List Piece}
    (h : condition.flatMap bare = condition'.flatMap bare)
    (tables tables' : Tables)
    (parent parent' linkType linkType' join join' : String) :
    (linkExists tables parent linkType join condition).flatMap bare
      = (linkExists tables' parent' linkType' join' condition').flatMap bare := by
  simp only [linkExists, farEnd, attached, attachedAt, field, List.flatMap_cons,
    List.flatMap_append, List.flatMap_nil, flatMap_group, bare_name, bare_text, h]

end Sql.Piece

namespace Filter

theorem bare_compared {expr expr' : List Piece}
    (h : expr.flatMap Piece.bare = expr'.flatMap Piece.bare) (operator : Word)
    (n : Nat) (type : Word) :
    (compared expr operator n type).flatMap Piece.bare
      = (compared expr' operator n type).flatMap Piece.bare := by
  rw [compared, compared, List.flatMap_append, List.flatMap_append, h]

mutual

/-- Without names a filter is written as with them, with nothing between
    quotes. -/
theorem bare_blank (tables tables' : Tables) : ∀ (f : Filter) (n : Nat),
    (f.blank.pieces tables n).flatMap Piece.bare
      = (f.pieces tables' n).flatMap Piece.bare
  | always, _ | never, _ | oneOf _ [], _ => rfl
  | conj fs, n | disj fs, n =>
      Piece.flatMap_joined_congr _ _ _ (bare_blankAll tables tables' fs n)
  | neg f, n => by
      simp only [blank, pieces, List.flatMap_cons, Piece.flatMap_group,
        bare_blank tables tables' f n]
  | present p, _ | oneOf p (_ :: _), _ => by
      simp only [blank, pieces, Piece.flatMap_group, List.flatMap_append,
        p.bare_blank]
  | typeIs p types, _ => by
      refine Piece.flatMap_joined_congr _ _ _ ?_
      rw [List.map_map, List.map_map]
      exact List.map_congr_left fun type _ =>
        Piece.bare_typeTest p.bare_blank type
  | equals p _, n => by
      simp only [blank, pieces, Piece.flatMap_group, bare_compared p.bare_blank]
  | pattern p _, n => by
      simp only [blank, pieces, Piece.flatMap_group,
        bare_compared p.bareText_blank]
  | bound p _ _, n => by
      refine Piece.bare_whenType p.bare_blank (bare_compared ?_ _ _ _) _ _ _
      simp only [List.flatMap_append, Piece.flatMap_group, p.bare_blank]
  | length p _ _, n => by
      have hlength : (word (.of "char_length") :: p.blank.textPieces).flatMap Piece.bare
          = (word (.of "char_length") :: p.textPieces).flatMap Piece.bare := by
        rw [List.flatMap_cons, List.flatMap_cons, p.bareText_blank]
      simp only [blank, pieces, Piece.flatMap_group, bare_compared hlength]
  | itemCount p _ _, n => by
      refine Piece.bare_whenType p.bare_blank (bare_compared ?_ _ _ _) _ _ _
      simp only [List.flatMap_cons, Piece.flatMap_group, p.bare_blank]
  | fullText p _, n => by
      simp only [blank, pieces, Piece.flatMap_group, List.flatMap_append,
        List.flatMap_cons, p.bareText_blank]
  | each p members quantifier name f, n =>
      Piece.bare_quantified p.bare_blank (bare_blank tables tables' f n) "" name
        members quantifier
  | linked parent linkType join f, n =>
      Piece.bare_linkExists (bare_blank tables tables' f n) tables tables' ""
        parent "" linkType "" join

theorem bare_blankAll (tables tables' : Tables) : ∀ (fs : List Filter) (n : Nat),
    (piecesAll tables (blankAll fs) n).map (·.flatMap Piece.bare)
      = (piecesAll tables' fs n).map (·.flatMap Piece.bare)
  | [], _ => rfl
  | f :: rest, n => by
      simp only [blankAll, piecesAll, List.map_cons, parameters_blank,
        bare_blank tables tables' f n, bare_blankAll tables tables' rest]

end

end Filter

end LinkedContracts
