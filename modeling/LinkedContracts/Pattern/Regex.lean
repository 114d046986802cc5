import LinkedContracts.Pattern.CharSet

/-! # Regular expressions

    Matching by sets of positions: `reach r` maps the positions where a
    match may start to those where one may end.  Only whether there is a
    match is of interest, so the order of alternatives does not show.

    A repetition is followed until a round adds nothing new, so every
    expression is matched in finitely many steps. -/

namespace LinkedContracts

/-- What an assertion asks of a position. -/
inductive Look where
  | textStart
  | textEnd
  | lineStart
  | lineEnd
  | crlfStart
  | crlfEnd
  | wordBoundary (unicode negated : Bool)
  | wordStart (unicode : Bool)
  | wordEnd (unicode : Bool)
  | wordStartHalf (unicode : Bool)
  | wordEndHalf (unicode : Bool)

/-- A regular expression. -/
inductive Regex where
  /-- The empty text. -/
  | empty
  /-- A single character. -/
  | char (set : CharSet)
  /-- A position with a property. -/
  | look (look : Look)
  | seq (first second : Regex)
  | alt (first second : Regex)
  /-- Between `least` and `most` times, without an upper end if `most` is
      missing. -/
  | rep (body : Regex) (least : Nat) (most : Option Nat)

/-- Positions in ascending order. -/
abbrev Positions := List Nat

namespace Positions

/-- The union of two sets of positions; `fuel` bounds its size. -/
def mergeFuel : Nat → Positions → Positions → Positions
  | 0, _, _ => []
  | _ + 1, [], qs => qs
  | _ + 1, ps, [] => ps
  | fuel + 1, p :: ps, q :: qs =>
      if p < q then p :: mergeFuel fuel ps (q :: qs)
      else if q < p then q :: mergeFuel fuel (p :: ps) qs
      else p :: mergeFuel fuel ps qs

/-- The union of two sets of positions. -/
def merge (ps qs : Positions) : Positions :=
  mergeFuel (ps.length + qs.length + 1) ps qs

end Positions

namespace Look

/-- Whether a character is part of a word. -/
def isWord (unicode : Bool) : Option Char → Bool
  | none => false
  | some c =>
      if unicode then Text.isWord c.toNat else CharSet.asciiWord.mem c.toNat

/-- Whether an assertion holds between two characters; none stands at the
    ends of the text. -/
def holds (before after : Option Char) : Look → Bool
  | textStart => before.isNone
  | textEnd => after.isNone
  | lineStart => before.isNone || before == some '\n'
  | lineEnd => after.isNone || after == some '\n'
  | crlfStart =>
      before.isNone || before == some '\n'
        || (before == some '\r' && after != some '\n')
  | crlfEnd =>
      after.isNone || after == some '\r'
        || (after == some '\n' && before != some '\r')
  | wordBoundary u negated =>
      (isWord u before != isWord u after) != negated
  | wordStart u => !isWord u before && isWord u after
  | wordEnd u => isWord u before && !isWord u after
  | wordStartHalf u => !isWord u before
  | wordEndHalf u => !isWord u after

end Look

namespace Regex

/-- Apply a step up to `n` times, or until the set stays the same. -/
def iterate (step : Positions → Positions) : Nat → Positions → Positions
  | 0, ps => ps
  | n + 1, ps =>
      let qs := step ps
      if qs == ps then ps else iterate step n qs

/-- All positions reached in at most `n` steps, or until a step adds
    nothing. -/
def closure (step : Positions → Positions) (n : Nat) (ps : Positions) :
    Positions :=
  iterate (fun qs => Positions.merge qs (step qs)) n ps

/-- The positions where a match that starts in `ps` may end. -/
def reach (text : Array Char) : Regex → Positions → Positions
  | empty, ps => ps
  | char set, ps =>
      ps.filterMap fun p =>
        match text[p]? with
        | some c => if set.mem c.toNat then some (p + 1) else none
        | none => none
  | look l, ps =>
      ps.filter fun p =>
        l.holds (if p = 0 then none else text[p - 1]?) text[p]?
  | seq a b, ps => reach text b (reach text a ps)
  | alt a b, ps => Positions.merge (reach text a ps) (reach text b ps)
  | rep r least most, ps =>
      let start := iterate (reach text r) least ps
      match most with
      | some m => closure (reach text r) (m - least) start
      | none => closure (reach text r) (text.size + 1) start

/-- Whether the expression matches somewhere in a text. -/
def matchesIn (r : Regex) (text : String) : Bool :=
  let cs := text.toList.toArray
  !(reach cs r (List.range (cs.size + 1))).isEmpty

/-- An estimate of the states of a compiled expression. -/
def weight : Regex → Nat
  | empty => 1
  | char set => set.weight
  | look _ => 1
  | seq a b => weight a + weight b
  | alt a b => weight a + weight b + 1
  | rep r least most =>
      match most with
      | some m => (weight r + 1) * max least m + 1
      | none => (weight r + 1) * max least 1 + 1

end Regex

end LinkedContracts
