import LinkedContracts.Sql.Quoted

/-! # The tokens of a statement

    A statement is read from the left.  Outside of quotes a character stands
    for itself, save that `$` and the digits behind it are the number of a
    parameter.  Either quote opens a token that the same character closes;
    written twice inside, it stands for itself.

    A name or a text between quotes is read as one token whatever it holds,
    as long as the same quote does not follow at once. -/

namespace LinkedContracts

namespace Sql

/-- A token of a statement. -/
inductive Token where
  /-- A character that stands for itself. -/
  | sign (c : Char)
  | quoted (quote : Char) (content : List Char)
  /-- What the end of the statement cuts off inside quotes. -/
  | unclosed (quote : Char) (content : List Char)
  /-- A parameter, by the digits of its number. -/
  | placeholder (digits : List Char)
deriving DecidableEq

def isQuote (c : Char) : Bool := c == '\'' || c == '"'

/-! ## Reading -/

/-- Where in a statement the reader is, with what it has read of a token. -/
inductive Reading where
  | outside
  | inside (quote : Char) (content : List Char)
  /-- After a quote that closes the token unless it is doubled. -/
  | behind (quote : Char) (content : List Char)
  | numbered (digits : List Char)

namespace Reading

/-- The tokens a character completes outside of any, and where it leads. -/
def start (c : Char) : List Token × Reading :=
  if isQuote c then ([], inside c [])
  else if c = '$' then ([], numbered [])
  else ([.sign c], outside)

/-- The tokens a character completes, and where it leads. -/
def step : Reading → Char → List Token × Reading
  | outside, c => start c
  | inside q content, c =>
      if c = q then ([], behind q content)
      else ([], inside q (content ++ [c]))
  | behind q content, c =>
      if c = q then ([], inside q (content ++ [q]))
      else (.quoted q content :: (start c).1, (start c).2)
  | numbered ds, c =>
      if c.isDigit then ([], numbered (ds ++ [c]))
      else (.placeholder ds :: (start c).1, (start c).2)

/-- The tokens the end of the statement completes. -/
def finish : Reading → List Token
  | outside => []
  | inside q content => [.unclosed q content]
  | behind q content => [.quoted q content]
  | numbered ds => [.placeholder ds]

/-- The tokens of the rest of a statement. -/
def read : Reading → List Char → List Token
  | r, [] => r.finish
  | r, c :: rest => (r.step c).1 ++ read (r.step c).2 rest

end Reading

/-- The tokens of a statement. -/
def tokens (text : String) : List Token := Reading.outside.read text.toList

/-! ## No character is lost -/

/-- A token as it is written. -/
def Token.chars : Token → List Char
  | sign c => [c]
  | quoted q content => Sql.quoted q content
  | unclosed q content => q :: replaceChar q [q, q] content
  | placeholder ds => '$' :: ds

theorem replaceChar_concat (c : Char) (image cs : List Char) (d : Char) :
    replaceChar c image (cs ++ [d])
      = replaceChar c image cs ++ if d = c then image else [d] := by
  simp [replaceChar]

namespace Reading

/-- What was read of a token, as it is written. -/
def pending (r : Reading) : List Char := r.finish.flatMap Token.chars

theorem chars_start (c : Char) :
    (start c).1.flatMap Token.chars ++ (start c).2.pending = [c] := by
  rw [start]
  split
  · rfl
  · split
    · next h => rw [h]; rfl
    · rfl

/-- A step writes what was pending and the character. -/
theorem chars_step (r : Reading) (c : Char) :
    (r.step c).1.flatMap Token.chars ++ (r.step c).2.pending
      = r.pending ++ [c] := by
  cases r with
  | outside => exact chars_start c
  | inside q content =>
      rw [step]
      split
      · next h => simp [h, pending, finish, Token.chars, Sql.quoted]
      · next h =>
          simp [h, pending, finish, Token.chars, replaceChar_concat]
  | behind q content =>
      rw [step]
      split
      · next h =>
          simp [h, pending, finish, Token.chars, Sql.quoted,
            replaceChar_concat]
      · rw [List.flatMap_cons, List.append_assoc, chars_start]
        simp [pending, finish]
  | numbered ds =>
      rw [step]
      split
      · simp [pending, finish, Token.chars]
      · rw [List.flatMap_cons, List.append_assoc, chars_start]
        simp [pending, finish]

theorem chars_read (r : Reading) (cs : List Char) :
    (r.read cs).flatMap Token.chars = r.pending ++ cs := by
  induction cs generalizing r with
  | nil => exact (List.append_nil _).symm
  | cons c rest ih =>
      rw [read, List.flatMap_append, ih, ← List.append_assoc, chars_step,
        List.append_assoc, List.singleton_append]

end Reading

/-- The tokens of a statement spell it out. -/
theorem chars_tokens (text : String) :
    (tokens text).flatMap Token.chars = text.toList :=
  Reading.chars_read .outside text.toList

/-! ## What is read from outside of any token -/

namespace Reading

theorem read_behind {q : Char} {content cs : List Char} (h : cs.head? ≠ some q) :
    (behind q content).read cs = .quoted q content :: outside.read cs := by
  cases cs with
  | nil => rfl
  | cons c rest =>
      have hc : c ≠ q := fun heq => h (congrArg some heq)
      simp only [read, step, if_neg hc, List.cons_append]

theorem read_numbered {ds cs : List Char}
    (h : ∀ c, cs.head? = some c → c.isDigit = false) :
    (numbered ds).read cs = .placeholder ds :: outside.read cs := by
  cases cs with
  | nil => rfl
  | cons c rest =>
      have hc : ¬ c.isDigit = true := by simp [h c rfl]
      simp only [read, step, if_neg hc, List.cons_append]

/-- What stands between quotes is read to its end, whatever it is. -/
theorem read_inside (q : Char) (seen content cs : List Char) :
    (inside q seen).read (replaceChar q [q, q] content ++ q :: cs)
      = (behind q (seen ++ content)).read cs := by
  induction content generalizing seen with
  | nil =>
      show (inside q seen).read (q :: cs) = _
      rw [read, step, if_pos rfl, List.append_nil]
      rfl
  | cons c rest ih =>
      -- a quote is written twice and read back in two steps, the second of
      -- which takes back that the token was closed
      have hstep : (inside q seen).read
            (replaceChar q [q, q] (c :: rest) ++ q :: cs)
          = (inside q (seen ++ [c])).read
            (replaceChar q [q, q] rest ++ q :: cs) := by
        by_cases hc : c = q
        · subst hc
          simp [replaceChar, read, step]
        · simp [replaceChar, read, step, hc]
      rw [hstep, ih, List.append_assoc, List.singleton_append]

/-- A quoted token is read as one, unless its quote follows at once. -/
theorem read_quoted {q : Char} (hq : isQuote q = true) (content : List Char)
    {cs : List Char} (h : cs.head? ≠ some q) :
    outside.read (Sql.quoted q content ++ cs)
      = .quoted q content :: outside.read cs := by
  rw [Sql.quoted, List.cons_append, List.append_assoc, read, step, start,
    if_pos hq, List.nil_append, List.singleton_append, read_inside,
    List.nil_append, read_behind h]

/-- Digits behind a `$` are read to the last one. -/
theorem read_digits {ds : List Char} (hds : ∀ d ∈ ds, d.isDigit = true)
    (seen : List Char) {cs : List Char}
    (h : ∀ c, cs.head? = some c → c.isDigit = false) :
    (numbered seen).read (ds ++ cs)
      = .placeholder (seen ++ ds) :: outside.read cs := by
  induction ds generalizing seen with
  | nil => rw [List.nil_append, List.append_nil, read_numbered h]
  | cons d rest ih =>
      obtain ⟨hd, hrest⟩ := List.forall_mem_cons.mp hds
      rw [List.cons_append, read, step, if_pos hd, List.nil_append, ih hrest,
        List.append_assoc, List.singleton_append]

end Reading

/-- Characters that stand for themselves wherever they are read outside of
    quotes. -/
def isSign (c : Char) : Bool := !isQuote c && c != '$'

theorem Reading.read_signs {cs : List Char} (h : ∀ c ∈ cs, isSign c = true)
    (rest : List Char) :
    outside.read (cs ++ rest) = cs.map Token.sign ++ outside.read rest := by
  induction cs with
  | nil => rfl
  | cons c cs ih =>
      obtain ⟨hc, hcs⟩ := List.forall_mem_cons.mp h
      obtain ⟨hquote, hdollar⟩ : isQuote c = false ∧ c ≠ '$' := by
        simpa [isSign] using hc
      rw [List.cons_append, read, step, start, if_neg (by simp [hquote]),
        if_neg hdollar, List.singleton_append, ih hcs]
      rfl

/-! ## What the tokens tell -/

namespace Token

/-- Whether a token ends before the statement does. -/
def isClosed : Token → Bool
  | unclosed _ _ => false
  | _ => true

/-- A token with nothing between its quotes. -/
def bare : Token → List Char
  | sign c => [c]
  | quoted q _ => [q, q]
  | unclosed q _ => [q]
  | placeholder ds => '$' :: ds

/-- The number of a parameter. -/
def number? : Token → Option Nat
  | placeholder (d :: ds) => some (Nat.ofDigitChars 10 (d :: ds) 0)
  | _ => none

/-- A token without the number of a parameter. -/
def unnumbered : Token → Token
  | placeholder _ => placeholder []
  | t => t

/-- How many parentheses are open after a token, given how many were before
    it; none if it closes one that was not. -/
def nest : Nat → Token → Option Nat
  | n, sign '(' => some (n + 1)
  | n + 1, sign ')' => some n
  | 0, sign ')' => none
  | n, _ => some n

end Token

/-- A statement with nothing between its quotes. -/
def skeleton (text : String) : List Char := (tokens text).flatMap Token.bare

/-- The numbers of the parameters a statement refers to, as they stand. -/
def placeholders (text : String) : List Nat := (tokens text).filterMap Token.number?

/-- A statement without the numbers of its parameters. -/
def unnumbered (text : String) : List Token := (tokens text).map Token.unnumbered

/-- A statement ends outside of quotes. -/
def Closed (text : String) : Prop := ∀ t ∈ tokens text, t.isClosed = true

/-- The parentheses outside of quotes are balanced: each closes one that is
    open, and in the end none is. -/
def Balanced (text : String) : Prop := (tokens text).foldlM Token.nest 0 = some 0

instance (text : String) : Decidable (Closed text) :=
  inferInstanceAs (Decidable (∀ t ∈ tokens text, t.isClosed = true))

instance (text : String) : Decidable (Balanced text) :=
  inferInstanceAs (Decidable (_ = _))

end Sql

end LinkedContracts
