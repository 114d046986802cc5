import Mathlib.Data.List.Chain
import LinkedContracts.Filter.Sql
import LinkedContracts.Proofs.Sql.Tokens

/-! # The pieces of a statement

    A statement is written from pieces: fixed words, parentheses, quoted
    names and texts, and references to parameters.  Where no two quoted
    pieces stand side by side, the statement is read as the tokens of its
    pieces one after another.  So what a name or a text holds shows nowhere
    else in the statement. -/

namespace LinkedContracts

namespace Sql

/-- Characters of fixed words: neither quotes nor parentheses, and no `$`. -/
def isPlain (c : Char) : Bool := isSign c && c != '(' && c != ')'

/-- A fixed word of a statement. -/
structure Word where of ::
  text : String
  fixed : (text != "" && text.toList.all isPlain) = true := by exact Eq.refl true

namespace Word

variable (w : Word)

theorem nonempty : w.text ≠ "" :=
  bne_iff_ne.mp (Bool.and_eq_true_iff.mp w.fixed).1

theorem plain : w.text.toList.all isPlain = true :=
  (Bool.and_eq_true_iff.mp w.fixed).2

end Word

/-- A piece of a statement. -/
inductive Piece where
  | word (w : Word)
  | opening
  | closing
  | name (s : String)
  | text (s : String)
  /-- The parameter after `n` others, cast to a type. -/
  | parameter (n : Nat) (type : Word)

namespace Piece

/-- Pieces between parentheses. -/
def group (ps : List Piece) : List Piece := opening :: (ps ++ [closing])

/-- Lists of pieces with a word between them. -/
def listed (w : Word) : List (List Piece) → List Piece
  | [] => []
  | [ps] => ps
  | ps :: rest => ps ++ word w :: listed w rest

/-! ## Writing -/

/-- A piece as it is written. -/
def chars : Piece → List Char
  | word w => w.text.toList
  | opening => ['(']
  | closing => [')']
  | name s => quoted '"' s.toList
  | text s => quoted '\'' s.toList
  | parameter n type => (Sql.parameter n).toList ++ ("::" ++ type.text).toList

/-- Pieces as they are written. -/
def write (ps : List Piece) : String := String.ofList (ps.flatMap chars)

@[simp] theorem toList_write (ps : List Piece) :
    (write ps).toList = ps.flatMap chars :=
  String.toList_ofList

@[simp] theorem write_nil : write [] = "" := rfl

@[simp] theorem write_append (ps qs : List Piece) :
    write (ps ++ qs) = write ps ++ write qs := by
  simp [write, String.ofList_append]

theorem write_cons (p : Piece) (ps : List Piece) :
    write (p :: ps) = write [p] ++ write ps :=
  write_append [p] ps

@[simp] theorem write_word (w : Word) (ps : List Piece) :
    write (word w :: ps) = w.text ++ write ps := by
  rw [write_cons, ← String.toList_inj]
  simp [chars]

@[simp] theorem write_name (s : String) (ps : List Piece) :
    write (name s :: ps) = ident s ++ write ps := by
  rw [write_cons, ← String.toList_inj]
  simp [chars, ident]

@[simp] theorem write_text (s : String) (ps : List Piece) :
    write (text s :: ps) = literal s ++ write ps := by
  rw [write_cons, ← String.toList_inj]
  simp [chars, literal]

@[simp] theorem write_parameter (n : Nat) (type : Word) (ps : List Piece) :
    write (parameter n type :: ps)
      = Sql.parameter n ++ "::" ++ type.text ++ write ps := by
  rw [write_cons, ← String.toList_inj]
  simp [chars]

@[simp] theorem write_group (ps : List Piece) :
    write (group ps) = "(" ++ write ps ++ ")" := by
  rw [← String.toList_inj]
  simp [group, chars]

@[simp] theorem write_listed (w : Word) (pss : List (List Piece)) :
    write (listed w pss) = joinWith w.text (pss.map write) := by
  induction pss with
  | nil => rfl
  | cons ps rest ih =>
      cases rest with
      | nil => rfl
      | cons qs rest =>
          rw [listed, write_append, write_word, ih, ← String.append_assoc]
          · rfl
          · exact nofun

/-! ## Reading what was written -/

/-- A piece as it is read. -/
def tokens : Piece → List Token
  | word w => w.text.toList.map .sign
  | opening => [.sign '(']
  | closing => [.sign ')']
  | name s => [.quoted '"' s.toList]
  | text s => [.quoted '\'' s.toList]
  | parameter n type =>
      .placeholder (Nat.toDigits 10 (n + 1))
        :: ("::" ++ type.text).toList.map .sign

/-- Whether a piece stands between quotes. -/
def isQuoted : Piece → Bool
  | name _ | text _ => true
  | _ => false

/-- A quoted piece would not end at the quote of another one. -/
def Apart (p q : Piece) : Prop := p.isQuoted = false ∨ q.isQuoted = false

theorem signs_word (w : Word) : ∀ c ∈ w.text.toList, isSign c = true := by
  intro c hc
  have h := List.all_eq_true.mp w.plain c hc
  simp only [isPlain, Bool.and_eq_true] at h
  exact h.1.1

theorem toList_word_ne_nil (w : Word) : w.text.toList ≠ [] :=
  fun h => w.nonempty (String.toList_inj.mp h)

theorem toList_parameter (n : Nat) :
    (Sql.parameter n).toList = '$' :: Nat.toDigits 10 (n + 1) := by
  simp [Sql.parameter]

/-- A piece that is not quoted begins with no quote. -/
theorem head?_chars {p : Piece} (h : p.isQuoted = false) (cs : List Char)
    {q : Char} (hq : isQuote q = true) : (p.chars ++ cs).head? ≠ some q := by
  intro heq
  have hsign (c : Char) (hc : isSign c = true) : some c ≠ some q := by
    rintro ⟨⟩
    simp [isSign, hq] at hc
  cases p with
  | name => cases h
  | text => cases h
  | opening => exact hsign '(' (by decide) heq
  | closing => exact hsign ')' (by decide) heq
  | parameter n type =>
      rw [chars, toList_parameter] at heq
      obtain rfl : '$' = q := Option.some.inj heq
      cases hq
  | word w =>
      obtain ⟨c, rest, hw⟩ := List.exists_cons_of_ne_nil (toList_word_ne_nil w)
      rw [chars, hw] at heq
      exact hsign c (signs_word w c (by simp [hw])) heq

/-- A piece is read as its tokens, wherever what follows is apart from it. -/
theorem read_chars (p : Piece) {cs : List Char}
    (h : ∀ q, isQuote q = true → p.isQuoted = true → cs.head? ≠ some q) :
    Reading.outside.read (p.chars ++ cs)
      = p.tokens ++ Reading.outside.read cs := by
  cases p with
  | word w => exact Reading.read_signs (signs_word w) cs
  | opening =>
      have hsigns : ∀ c ∈ ['('], isSign c = true :=
        List.forall_mem_singleton.mpr rfl
      exact Reading.read_signs hsigns cs
  | closing =>
      have hsigns : ∀ c ∈ [')'], isSign c = true :=
        List.forall_mem_singleton.mpr rfl
      exact Reading.read_signs hsigns cs
  | name s => exact Reading.read_quoted rfl _ (h '"' rfl rfl)
  | text s => exact Reading.read_quoted rfl _ (h '\'' rfl rfl)
  | parameter n type =>
      have hdigits : ∀ d ∈ Nat.toDigits 10 (n + 1), d.isDigit = true :=
        fun d hd => Nat.isDigit_of_mem_toDigits (by decide) (by decide) hd
      have hcast : ∀ c ∈ ("::" ++ type.text).toList, isSign c = true := by
        rw [String.toList_append]
        exact List.forall_mem_append.mpr
          ⟨List.all_eq_true.mp (by decide), signs_word type⟩
      -- the cast ends the number, whatever its type starts with
      have hcolon : ∀ c, (("::" ++ type.text).toList ++ cs).head? = some c →
          c.isDigit = false := by
        simp
      show Reading.outside.read ((Sql.parameter n).toList
        ++ ("::" ++ type.text).toList ++ cs) = _
      rw [toList_parameter, List.append_assoc, List.cons_append, Reading.read]
      exact (Reading.read_digits hdigits [] hcolon).trans
        (congrArg _ (Reading.read_signs hcast cs))

/-- Pieces are read as they were written. -/
theorem tokens_write {ps : List Piece} (h : ps.IsChain Apart) :
    Sql.tokens (write ps) = ps.flatMap tokens := by
  rw [Sql.tokens, toList_write]
  induction ps with
  | nil => rfl
  | cons p rest ih =>
      rw [List.flatMap_cons, List.flatMap_cons, read_chars, ih h.tail]
      -- behind a quoted piece stands one that is not, or nothing at all
      intro q hq hp
      cases rest with
      | nil => exact nofun
      | cons p' rest =>
          have hp' : p'.isQuoted = false :=
            ((List.isChain_cons_cons.mp h).1).resolve_left (by simp [hp])
          rw [List.flatMap_cons]
          exact head?_chars hp' _ hq

/-! ## Pieces that fit together -/

/-- Pieces that are read as they were written, with parentheses balanced. -/
structure Fit (ps : List Piece) : Prop where
  apart : ps.IsChain Apart
  level : ∀ n, (ps.flatMap tokens).foldlM Token.nest n = some n

theorem nest_sign {c : Char} (h : isPlain c = true) (n : Nat) :
    Token.nest n (.sign c) = some n := by
  obtain ⟨⟨-, hopen⟩, hclose⟩ : (isSign c = true ∧ c ≠ '(') ∧ c ≠ ')' := by
    simpa [isPlain] using h
  rw [Token.nest.eq_def]
  split <;> simp_all

theorem nest_signs {cs : List Char} (h : cs.all isPlain = true) (n : Nat) :
    (cs.map Token.sign).foldlM Token.nest n = some n := by
  induction cs with
  | nil => rfl
  | cons c rest ih =>
      rw [List.all_cons, Bool.and_eq_true] at h
      obtain ⟨hc, hrest⟩ := h
      rw [List.map_cons, List.foldlM_cons, nest_sign hc]
      exact ih hrest

/-- Only parentheses change how many are open. -/
theorem level_tokens {p : Piece} (hopen : p ≠ opening) (hclose : p ≠ closing)
    (n : Nat) : p.tokens.foldlM Token.nest n = some n := by
  cases p with
  | word w => exact nest_signs w.plain n
  | opening => exact absurd rfl hopen
  | closing => exact absurd rfl hclose
  | name => rfl
  | text => rfl
  | parameter m type =>
      have hcast : ("::" ++ type.text).toList.all isPlain = true := by
        rw [String.toList_append, List.all_append, type.plain]
        rfl
      exact nest_signs hcast n

namespace Fit

variable {ps qs : List Piece}

@[simp] theorem nil : Fit [] := ⟨.nil, fun _ => rfl⟩

theorem one {p : Piece} (hopen : p ≠ opening) (hclose : p ≠ closing) :
    Fit [p] := by
  refine ⟨.singleton p, fun n => ?_⟩
  rw [List.flatMap_singleton]
  exact level_tokens hopen hclose n

/-- Behind pieces that fit, pieces fit as they do alone, unless two quoted
    ones meet. -/
theorem append_iff (hp : Fit ps)
    (h : ∀ p ∈ ps.getLast?, ∀ q ∈ qs.head?, Apart p q) :
    Fit (ps ++ qs) ↔ Fit qs := by
  have hlevel (n : Nat) : ((ps ++ qs).flatMap tokens).foldlM Token.nest n
      = (qs.flatMap tokens).foldlM Token.nest n := by
    rw [List.flatMap_append, List.foldlM_append, hp.level]
    rfl
  constructor
  · intro hfit
    exact ⟨(List.isChain_append.mp hfit.apart).2.1,
      fun n => (hlevel n).symm.trans (hfit.level n)⟩
  · intro hq
    exact ⟨List.isChain_append.mpr ⟨hp.apart, hq.apart, h⟩,
      fun n => (hlevel n).trans (hq.level n)⟩

@[simp] theorem name (s : String) : Fit [.name s] := one nofun nofun

@[simp] theorem text (s : String) : Fit [.text s] := one nofun nofun

@[simp] theorem parameter (n : Nat) (type : Word) : Fit [.parameter n type] :=
  one nofun nofun

@[simp] theorem word_iff {w : Word} : Fit (word w :: qs) ↔ Fit qs :=
  (one (p := word w) nofun nofun).append_iff fun p hp _ _ => .inl (by
    obtain rfl : word w = p := Option.some.inj hp
    rfl)

/-- Any pieces fit before a fixed word. -/
@[simp] theorem append_word_iff (hp : Fit ps) {w : Word} :
    Fit (ps ++ word w :: qs) ↔ Fit qs :=
  (hp.append_iff fun _ _ q hq => .inr (by
    obtain rfl : word w = q := Option.some.inj hq
    rfl)).trans word_iff

@[simp] theorem name_word_iff {s : String} {w : Word} :
    Fit (.name s :: word w :: ps) ↔ Fit ps :=
  (name s).append_word_iff

@[simp] theorem text_word_iff {s : String} {w : Word} :
    Fit (.text s :: word w :: ps) ↔ Fit ps :=
  (text s).append_word_iff

/-- Pieces that fit do so between parentheses. -/
@[simp] theorem group (h : Fit ps) : Fit (group ps) := by
  constructor
  · have hend : (ps ++ [closing]).IsChain Apart :=
      List.isChain_append.mpr ⟨h.apart, .singleton _, fun _ _ q hq => .inr (by
        obtain rfl : closing = q := Option.some.inj hq
        rfl)⟩
    exact List.isChain_cons.mpr ⟨fun _ _ => .inl rfl, hend⟩
  · intro n
    simp only [Piece.group, List.flatMap_cons, List.flatMap_append,
      List.foldlM_append]
    -- the pieces leave one more level open than there was, as they found it
    show ((ps.flatMap tokens).foldlM Token.nest (n + 1)).bind _ = _
    rw [h.level]
    rfl

/-- Any pieces fit behind parentheses. -/
@[simp] theorem group_append_iff (hp : Fit ps) :
    Fit (Piece.group ps ++ qs) ↔ Fit qs :=
  hp.group.append_iff fun p hp _ _ => .inl (by
    rw [Piece.group, ← List.cons_append, List.getLast?_concat] at hp
    obtain rfl : closing = p := Option.some.inj hp
    rfl)

/-- Parentheses fit behind a name. -/
@[simp] theorem name_group_iff {s : String} :
    Fit (.name s :: (Piece.group ps ++ qs)) ↔ Fit (Piece.group ps ++ qs) :=
  (name s).append_iff fun _ _ q hq => .inr (by
    obtain rfl : opening = q := Option.some.inj hq
    rfl)

@[simp] theorem name_group (s : String) (h : Fit ps) :
    Fit (.name s :: Piece.group ps) := by
  have hgroup : Fit (Piece.group ps ++ []) := (List.append_nil _).symm ▸ h.group
  exact List.append_nil (Piece.group ps) ▸ name_group_iff.mpr hgroup

/-- Lists of pieces fit with a word between them. -/
theorem listed (w : Word) {pss : List (List Piece)} (h : ∀ ps ∈ pss, Fit ps) :
    Fit (Piece.listed w pss) := by
  induction pss with
  | nil => exact nil
  | cons ps rest ih =>
      obtain ⟨hps, hrest⟩ := List.forall_mem_cons.mp h
      cases rest with
      | nil => exact hps
      | cons qs rest => exact hps.append_word_iff.mpr (ih hrest)

end Fit

/-! ## What the pieces tell -/

/-- A piece with nothing between its quotes. -/
def bare (p : Piece) : List Char := p.tokens.flatMap Token.bare

/-- The numbers of the parameters a piece refers to. -/
def numbers (p : Piece) : List Nat := p.tokens.filterMap Token.number?

/-- A piece without the numbers of its parameters. -/
def unnumbered (p : Piece) : List Token := p.tokens.map Token.unnumbered

@[simp] theorem bare_name (s : String) : (name s).bare = ['"', '"'] := rfl

@[simp] theorem bare_text (s : String) : (text s).bare = ['\'', '\''] := rfl

@[simp] theorem numbers_word (w : Word) : (word w).numbers = [] := by
  simp [numbers, tokens, Token.number?]

@[simp] theorem numbers_opening : opening.numbers = [] := rfl

@[simp] theorem numbers_closing : closing.numbers = [] := rfl

@[simp] theorem numbers_name (s : String) : (name s).numbers = [] := rfl

@[simp] theorem numbers_text (s : String) : (text s).numbers = [] := rfl

@[simp] theorem numbers_parameter (n : Nat) (type : Word) :
    (parameter n type).numbers = [n + 1] := by
  have hsigns : (("::" ++ type.text).toList.map Token.sign).filterMap
      Token.number? = [] := by
    simp [Token.number?]
  have hnumber : Token.number? (.placeholder (Nat.toDigits 10 (n + 1)))
      = some (n + 1) := by
    obtain ⟨d, ds, hds⟩ :=
      List.exists_cons_of_ne_nil (Nat.toDigits_ne_nil (n := n + 1) (b := 10))
    rw [hds, Token.number?, ← hds, Nat.ofDigitChars_ten_toDigits]
  rw [numbers, tokens, List.filterMap_cons_some hnumber, hsigns]

theorem flatMap_group {α : Type} (f : Piece → List α) (ps : List Piece) :
    (group ps).flatMap f = f opening ++ (ps.flatMap f ++ f closing) := by
  simp [group]

theorem flatMap_listed {α : Type} (f : Piece → List α) (w : Word)
    (pss : List (List Piece)) :
    (listed w pss).flatMap f
      = (f (word w)).intercalate (pss.map (·.flatMap f)) := by
  induction pss with
  | nil => rfl
  | cons ps rest ih =>
      cases rest with
      | nil => simp [listed, List.intercalate]
      | cons qs rest =>
          rw [listed, List.flatMap_append, List.flatMap_cons, ih]
          · simp [List.intercalate]
          · exact nofun

theorem numbers_listed (w : Word) (pss : List (List Piece)) :
    (listed w pss).flatMap numbers = (pss.map (·.flatMap numbers)).flatten := by
  induction pss with
  | nil => rfl
  | cons ps rest ih =>
      cases rest with
      | nil => simp [listed]
      | cons qs rest =>
          rw [listed, List.flatMap_append, List.flatMap_cons, ih, numbers_word]
          · rfl
          · exact nofun

@[simp] theorem numbers_group (ps : List Piece) :
    (group ps).flatMap numbers = ps.flatMap numbers := by
  simp [flatMap_group]

section

variable {ps : List Piece} (h : Fit ps)
include h

theorem skeleton_write : skeleton (write ps) = ps.flatMap bare := by
  rw [skeleton, tokens_write h.apart, List.flatMap_assoc]
  rfl

theorem placeholders_write : placeholders (write ps) = ps.flatMap numbers := by
  rw [placeholders, tokens_write h.apart, List.filterMap_flatMap]
  rfl

theorem unnumbered_write :
    Sql.unnumbered (write ps) = ps.flatMap unnumbered := by
  rw [Sql.unnumbered, tokens_write h.apart, List.map_flatMap]
  rfl

theorem closed_write : Closed (write ps) := by
  rw [Closed, tokens_write h.apart]
  intro t ht
  obtain ⟨p, -, htp⟩ := List.mem_flatMap.mp ht
  have hsigns (cs : List Char) : ∀ t ∈ cs.map Token.sign, t.isClosed = true :=
    List.forall_mem_map.mpr fun _ _ => rfl
  cases p with
  | word w => exact hsigns _ t htp
  | opening | closing | name | text =>
      rw [List.mem_singleton.mp htp]
      rfl
  | parameter n type =>
      rcases List.mem_cons.mp htp with rfl | htp
      · rfl
      · exact hsigns _ t htp

theorem balanced_write : Balanced (write ps) := by
  rw [Balanced, tokens_write h.apart]
  exact h.level 0

end

end Piece

end Sql

end LinkedContracts
