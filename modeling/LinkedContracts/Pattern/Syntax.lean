import LinkedContracts.Numeric.Word
import LinkedContracts.Pattern.Regex
import LinkedContracts.Text.Split

/-! # Pattern syntax

    Reading a regular expression.  Besides the usual operators there are
    groups with names and flags, bracketed sets with nesting and set
    operations, escapes for characters, classes and Unicode properties, and
    assertions.  There is no look-around and no back-reference.

    The reader keeps the pattern that is left, the flags in force and the
    group names seen.  A group ends the flags set inside it. -/

namespace LinkedContracts

namespace Pattern

/-- Flags of a pattern. -/
structure Flags where
  ignoreCase : Bool := false
  multiLine : Bool := false
  dotAll : Bool := false
  unicode : Bool := true
  crlf : Bool := false
  /-- Blanks and comments do not count. -/
  verbose : Bool := false

/-- What the reader keeps. -/
structure State where
  rest : List Char
  flags : Flags
  names : List (List Char) := []

/-- A reader; a malformed pattern has no result. -/
abbrev Reader := StateT State Option

/-- A part of a pattern: the expression, how deep it nests, and whether a
    repetition may follow it. -/
structure Part where
  regex : Regex
  depth : Nat := 0
  repeatable : Bool := true

/-- How deep a pattern may nest. -/
def maxDepth : Nat := 250

/-- How many states a compiled pattern may have. -/
def maxWeight : Nat := 400000

/-! ## Characters -/

/-- The next character. -/
def peek : Reader (Option Char) := do return (← get).rest.head?

/-- The next character, which has to be there. -/
def next : Reader Char := do
  match (← get).rest with
  | c :: _ => return c
  | [] => failure

/-- Leave out a comment to the end of its line. -/
def skipComment (cs : List Char) : List Char :=
  (cs.dropWhile (· != '\n')).drop 1

/-- Leave out blanks and comments; `fuel` bounds their number. -/
def skipFuel : Nat → List Char → List Char
  | 0, cs => cs
  | fuel + 1, cs =>
      match cs with
      | c :: rest =>
          if Text.isWhiteSpace c.toNat then skipFuel fuel rest
          else if c = '#' then skipFuel fuel (skipComment rest)
          else cs
      | [] => []

/-- What is left after blanks and comments, where they do not count. -/
def afterBlanks (flags : Flags) (cs : List Char) : List Char :=
  if flags.verbose then skipFuel (cs.length + 1) cs else cs

/-- Leave out blanks and comments where they do not count. -/
def skipBlanks : Reader Unit :=
  modify fun s => { s with rest := afterBlanks s.flags s.rest }

/-- Leave out the next character. -/
def bump : Reader Unit := modify fun s => { s with rest := s.rest.drop 1 }

/-- Leave out the next character and blanks after it. -/
def bumpBlanks : Reader Unit := do bump; skipBlanks

/-! ## Literals and classes -/

/-- The set of a character under the flags. -/
def literalSet (flags : Flags) (c : Char) : CharSet :=
  if !flags.ignoreCase then .single c
  else if flags.unicode then (CharSet.single c).folded
  else (CharSet.single c).foldedAscii

/-- A set under the flags, folded and negated.  Without Unicode a set may
    hold ASCII characters only. -/
def finishSet (flags : Flags) (negated : Bool) (set : CharSet) :
    Option CharSet :=
  if flags.unicode then
    some ((if flags.ignoreCase then set.folded else set).negateIf negated)
  else
    let set := (if flags.ignoreCase then set.foldedAscii else set).negateIf
      negated
    if (List.range 128).any fun c => set.mem (c + 128) then none else some set

/-- The set of a class letter. -/
def classSet (flags : Flags) (letter : Char) : Option CharSet :=
  let lower := letter.toLower
  let set :=
    if flags.unicode then
      if lower = 'd' then CharSet.digit
      else if lower = 's' then .space else .word
    else
      if lower = 'd' then CharSet.asciiDigit
      else if lower = 's' then .asciiSpace else .asciiWord
  let negated := letter != lower
  if !flags.unicode && negated then none else some (set.negateIf negated)

/-- What an escape or a plain character stands for. -/
inductive Atom where
  | literal (c : Char)
  /-- A character by a code of two digits, which without Unicode is a
      byte. -/
  | byte (c : Char)
  | set (s : CharSet)
  | look (l : Look)
  | dot

/-- The value of a hexadecimal digit. -/
def hex? (c : Char) : Option Nat :=
  if '0' ≤ c ∧ c ≤ '9' then some (c.toNat - 48)
  else if 'a' ≤ c ∧ c ≤ 'f' then some (c.toNat - 87)
  else if 'A' ≤ c ∧ c ≤ 'F' then some (c.toNat - 55)
  else none

/-- The character of a code point, if it is one. -/
def charOf? (n : Nat) : Option Char :=
  if h : n.isValidChar then some (Char.ofNatAux n h) else none

/-- Hexadecimal digits up to a closing brace; `fuel` bounds their number. -/
def hexBrace : Nat → List Nat → Reader (List Nat)
  | 0, _ => failure
  | fuel + 1, done => do
      let c ← next
      if c = '\x7d' then return done
      else
        let some n := hex? c | failure
        bumpBlanks
        hexBrace fuel (done ++ [n])

/-- A given number of hexadecimal digits. -/
def hexDigits : Nat → List Nat → Reader (List Nat)
  | 0, done => return done
  | n + 1, done => do
      let some d := hex? (← next) | failure
      bumpBlanks
      hexDigits n (done ++ [d])

/-- The character of hexadecimal digits. -/
def hexChar (ds : List Nat) : Reader Char := do
  if ds.isEmpty then failure
  let some c := charOf? (ds.foldl (fun n d => n * 16 + d) 0) | failure
  return c

/-- A character by its code, after the letter of the escape: digits in
    braces, or a number of them fixed by the letter. -/
def hexEscape (width : Nat) : Reader Atom := do
  bumpBlanks
  let c ← next
  if c = '\x7b' then
    bumpBlanks
    let ds ← hexBrace ((← get).rest.length + 1) []
    bumpBlanks
    return .literal (← hexChar ds)
  else
    let c ← hexChar (← hexDigits width [])
    return if width = 2 then .byte c else .literal c

/-- Characters up to a closing brace. -/
def untilBrace : Nat → List Char → Reader (List Char)
  | 0, _ => failure
  | fuel + 1, done => do
      let c ← next
      if c = '\x7d' then return done
      else
        bumpBlanks
        untilBrace fuel (done ++ [c])

/-- The set of a property, as it is written between braces. -/
def propertySet (text : List Char) : Option CharSet :=
  let cut (cs : List Char) :=
    match splitFirst '=' cs with
    | some (a, b) => some (a, b)
    | none => none
  match cut text with
  | some (a, b) =>
      if a.getLast? = some '!' then
        (CharSet.valued? a.dropLast b).map CharSet.compl
      else match splitFirst ':' text with
        | some (n, v) => CharSet.valued? n v
        | none => CharSet.valued? a b
  | none =>
      match splitFirst ':' text with
      | some (n, v) => CharSet.valued? n v
      | none => CharSet.named? text

/-- A Unicode property, at the letter of the escape. -/
def propertyEscape (letter : Char) : Reader Atom := do
  bumpBlanks
  let c ← next
  let text ←
    if c = '\x7b' then do
      bumpBlanks
      let text ← untilBrace ((← get).rest.length + 1) []
      bump
      pure text
    else if c = '\\' then failure
    else do
      bumpBlanks
      pure [c]
  let flags := (← get).flags
  if !flags.unicode then failure
  let some set := propertySet text | failure
  let some set := finishSet flags (letter == 'P') set | failure
  return .set set

/-- Characters that mean themselves after a backslash. -/
def isEscapable (c : Char) : Bool :=
  c.toNat < 128 && !c.isAlphanum && c != '<' && c != '>'

/-- Letters and hyphens up to a closing brace. -/
def boundaryName : Nat → List Char → Reader (List Char)
  | 0, _ => failure
  | fuel + 1, done => do
      let c ← next
      if c = '\x7d' then return done
      else if c.isAlpha || c == '-' then
        bumpBlanks
        boundaryName fuel (done ++ [c])
      else failure

/-- The rest of a word boundary, which may have a name in braces. -/
def boundaryEscape : Reader Look := do
  let s ← get
  let unicode := s.flags.unicode
  match s.rest with
  | '\x7b' :: _ => do
      bumpBlanks
      let c ← next
      if c.isAlpha || c == '-' then
        let name ← boundaryName ((← get).rest.length + 1) []
        bump
        match String.ofList name with
        | "start" => return .wordStart unicode
        | "end" => return .wordEnd unicode
        | "start-half" => return .wordStartHalf unicode
        | "end-half" => return .wordEndHalf unicode
        | _ => failure
      else
        set s
        return .wordBoundary unicode false
  | _ => return .wordBoundary unicode false

/-- An escape, at its backslash. -/
def escape : Reader Atom := do
  bump
  let c ← next
  let unicode := (← get).flags.unicode
  if c = 'x' then hexEscape 2
  else if c = 'u' then hexEscape 4
  else if c = 'U' then hexEscape 8
  else if c = 'p' ∨ c = 'P' then propertyEscape c
  else if c.toLower = 'd' ∨ c.toLower = 's' ∨ c.toLower = 'w' then
    bump
    let some set := classSet (← get).flags c | failure
    return .set set
  else
    bump
    if isEscapable c then return .literal c
    else match c with
      | 'a' => return .literal (Char.ofNat 7)
      | 'f' => return .literal (Char.ofNat 12)
      | 't' => return .literal '\t'
      | 'n' => return .literal '\n'
      | 'r' => return .literal '\r'
      | 'v' => return .literal (Char.ofNat 11)
      | 'A' => return .look .textStart
      | 'z' => return .look .textEnd
      | 'b' => return .look (← boundaryEscape)
      | 'B' => return .look (.wordBoundary unicode true)
      | '<' => return .look (.wordStart unicode)
      | '>' => return .look (.wordEnd unicode)
      | _ => failure

/-- The set an atom stands for. -/
def atomSet (flags : Flags) : Atom → Option CharSet
  | .literal c => some (literalSet flags c)
  | .byte c =>
      if flags.unicode || c.toNat < 128 then some (literalSet flags c) else none
  | .set s => some s
  | _ => none

/-- The expression of an atom. -/
def atomRegex (flags : Flags) : Atom → Option Regex
  | .look l => some (.look l)
  | .dot =>
      if !flags.unicode then none
      else if flags.dotAll then some (.char .all)
      else if flags.crlf then
        some (.char (CharSet.union (.single '\r') (.single '\n')).compl)
      else some (.char (CharSet.single '\n').compl)
  | a => (atomSet flags a).map .char

/-- The assertion at the start of a line. -/
def caret (flags : Flags) : Look :=
  if flags.multiLine then if flags.crlf then .crlfStart else .lineStart
  else .textStart

/-- The assertion at the end of a line. -/
def dollar (flags : Flags) : Look :=
  if flags.multiLine then if flags.crlf then .crlfEnd else .lineEnd
  else .textEnd

/-! ## Bracketed sets -/

/-- A set under way: its members so far, their number and nesting. -/
structure Members where
  set : CharSet := .empty
  count : Nat := 0
  depth : Nat := 0

/-- One more member. -/
def Members.add (m : Members) (set : CharSet) (depth : Nat) : Members :=
  ⟨m.set.union set, m.count + 1, max m.depth depth⟩

/-- How deep the members nest. -/
def Members.nesting (m : Members) : Nat :=
  if 2 ≤ m.count then m.depth + 1 else m.depth

/-- The operations on sets. -/
inductive SetOp where
  | inter
  | diff
  | symmDiff

/-- Apply a set operation, each side folded first. -/
def SetOp.apply (flags : Flags) (op : SetOp) (a b : CharSet) : CharSet :=
  let fold (s : CharSet) :=
    if flags.ignoreCase then if flags.unicode then s.folded else s.foldedAscii
    else s
  match op with
  | inter => (fold a).inter (fold b)
  | diff => (fold a).diff (fold b)
  | symmDiff => (fold a).symmDiff (fold b)

/-- Close the pending operation of a set. -/
def closeOp (flags : Flags) (pending : Option (Members × SetOp))
    (m : Members) : Members :=
  match pending with
  | none => m
  | some (a, op) =>
      ⟨op.apply flags a.set m.set, 1, max a.nesting m.nesting + 1⟩

/-- The ASCII class that is next, if it is well-formed: `[:name:]`. -/
def asciiClass : Reader (Option CharSet) := do
  let s ← get
  match s.rest with
  | '[' :: ':' :: rest =>
      let (negated, rest) := match rest with
        | '^' :: r => (true, r)
        | r => (false, r)
      let name := rest.takeWhile (· != ':')
      match rest.drop name.length with
      | ':' :: ']' :: rest =>
          match CharSet.asciiClass? (String.ofList name) with
          | some c =>
              let some c := finishSet s.flags negated c | failure
              set { s with rest := rest }
              return some c
          | none => return none
      | _ => return none
  | _ => return none

/-- A character or escape in a set. -/
def setAtom : Reader Atom := do
  let c ← next
  if c = '\\' then escape
  else
    bump
    return .literal c

/-- The character of an atom, which has to be one. -/
def atomChar (flags : Flags) : Atom → Option Char
  | .literal c | .byte c =>
      if flags.unicode || c.toNat < 128 then some c else none
  | _ => none

/-- The set of an atom before folding. -/
def plainSet (flags : Flags) : Atom → Option CharSet
  | .literal c | .byte c =>
      if flags.unicode || c.toNat < 128 then some (.single c) else none
  | .set s => some s
  | _ => none

/-- A member of a set: a character, a class or a range. -/
def setMember : Reader CharSet := do
  let first ← setAtom
  skipBlanks
  let s ← get
  match s.rest with
  | '-' :: rest =>
      let ahead := (afterBlanks s.flags rest).head?
      if ahead = some ']' ∨ ahead = some '-' then
        let some set := plainSet s.flags first | failure
        return set
      else
        bumpBlanks
        let last ← setAtom
        let some a := atomChar s.flags first | failure
        let some b := atomChar s.flags last | failure
        if b < a then failure
        return .range a.toNat b.toNat
  | [] => failure
  | _ =>
      let some set := plainSet s.flags first | failure
      return set

/-- Leading hyphens of a set. -/
def leadingHyphens : Nat → Members → Reader Members
  | 0, _ => failure
  | fuel + 1, m => do
      if (← next) = '-' then
        bumpBlanks
        leadingHyphens fuel (m.add (.single '-') 0)
      else return m

/-- The start of a set after its bracket: negation, leading hyphens and a
    leading closing bracket. -/
def openSet : Reader (Bool × Members) := do
  bumpBlanks
  let negated := (← next) == '^'
  if negated then bumpBlanks
  let m ← leadingHyphens ((← get).rest.length + 1) {}
  if m.count = 0 ∧ (← next) = ']' then
    bumpBlanks
    let _ ← next
    return (negated, m.add (.single ']') 0)
  else return (negated, m)

mutual

/-- A bracketed set, at its bracket. -/
def bracketed : Nat → Reader (CharSet × Nat)
  | 0 => failure
  | fuel + 1 => do
      let (negated, m) ← openSet
      let m ← members fuel none m
      let some set := finishSet (← get).flags negated m.set | failure
      return (set, m.nesting + 1)

/-- The members of a set up to its closing bracket; `pending` is the left
    side of a set operation. -/
def members : Nat → Option (Members × SetOp) → Members → Reader Members
  | 0, _, _ => failure
  | fuel + 1, pending, m => do
      skipBlanks
      let s ← get
      match s.rest with
      | [] => failure
      | '[' :: _ =>
          match ← asciiClass with
          | some set => members fuel pending (m.add set 0)
          | none =>
              let (set, depth) ← bracketed fuel
              members fuel pending (m.add set depth)
      | ']' :: _ =>
          bump
          return closeOp s.flags pending m
      | '&' :: '&' :: _ =>
          bump; bump
          members fuel (some (closeOp s.flags pending m, .inter)) {}
      | '-' :: '-' :: _ =>
          bump; bump
          members fuel (some (closeOp s.flags pending m, .diff)) {}
      | '~' :: '~' :: _ =>
          bump; bump
          members fuel (some (closeOp s.flags pending m, .symmDiff)) {}
      | _ =>
          let set ← setMember
          members fuel pending (m.add set 0)

end

/-! ## Groups and repetitions -/

/-- A flag set or cleared. -/
def setFlag (flags : Flags) (on : Bool) : Char → Option Flags
  | 'i' => some { flags with ignoreCase := on }
  | 'm' => some { flags with multiLine := on }
  | 's' => some { flags with dotAll := on }
  | 'U' => some flags
  | 'u' => some { flags with unicode := on }
  | 'R' => some { flags with crlf := on }
  | 'x' => some { flags with verbose := on }
  | _ => none

/-- Flags up to a colon or parenthesis; `seen` are those before, and a
    hyphen clears the ones after it. -/
def readFlags : Nat → List Char → Flags → Reader (Flags × Bool)
  | 0, _, _ => failure
  | fuel + 1, seen, flags => do
      let c ← next
      if c = ':' ∨ c = ')' then
        if seen.head? = some '-' then failure
        return (flags, seen.isEmpty)
      else if c ∈ seen then failure
      else if c = '-' then
        bump
        let _ ← next
        readFlags fuel (c :: seen) flags
      else
        let some flags := setFlag flags (!seen.contains '-') c | failure
        bump
        let _ ← next
        readFlags fuel (c :: seen) flags

/-- Whether a character may be in the name of a group. -/
def isNameChar (first : Bool) (c : Char) : Bool :=
  if first then c == '_' || Text.isAlphabetic c.toNat
  else c == '_' || c == '.' || c == '[' || c == ']' || Text.isAlphanumeric c

/-- The name of a group up to its closing bracket. -/
def groupName : Nat → List Char → Reader (List Char)
  | 0, _ => failure
  | fuel + 1, done => do
      let c ← next
      if c = '>' then
        bump
        if done.isEmpty then failure
        return done
      else if isNameChar done.isEmpty c then
        bump
        groupName fuel (done ++ [c])
      else failure

/-- A decimal number, blanks around it. -/
def readDecimal : Reader Nat := do
  modify fun s => { s with
    rest := s.rest.dropWhile fun c => Text.isWhiteSpace c.toNat }
  let s ← get
  -- where blanks do not count they may stand between digits
  let rec take : Nat → List Char → List Char → List Char × List Char
    | 0, done, cs => (done, cs)
    | fuel + 1, done, cs =>
        match cs with
        | c :: rest =>
            if c.isDigit then take fuel (done ++ [c]) (afterBlanks s.flags rest)
            else (done, cs)
        | [] => (done, [])
  let (ds, rest) := take (s.rest.length + 1) [] s.rest
  let rest := rest.dropWhile fun c => Text.isWhiteSpace c.toNat
  set { s with rest := afterBlanks s.flags rest }
  if ds.isEmpty then failure
  let n := decimalValue ds
  if Nat.pow 2 32 ≤ n then failure
  return n

/-- The bounds of a counted repetition, at its brace. -/
def readBounds : Reader (Nat × Option Nat) := do
  bumpBlanks
  let _ ← next
  let least ← readDecimal
  let c ← next
  let most ←
    if c = ',' then do
      bumpBlanks
      if (← next) = '\x7d' then pure none
      else some <$> readDecimal
    else pure (some least)
  if (← next) = '\x7d' then bumpBlanks else failure
  match most with
  | some m => if m < least then failure else return (least, most)
  | none => return (least, most)

/-- Repeat the last part. -/
def repeatLast (parts : List Part) (least : Nat) (most : Option Nat) :
    Reader (List Part) := do
  match parts with
  | part :: before =>
      if part.repeatable then
        return ⟨.rep part.regex least most, part.depth + 1, true⟩ :: before
      else failure
  | [] => failure

/-- Leave out the mark of a lazy repetition: which match is found does not
    matter. -/
def skipLazy : Reader Unit := do
  if (← peek) = some '?' then bump

/-- Parts one after another; the last one comes first. -/
def sequence (parts : List Part) : Part :=
  match parts with
  | [] => ⟨.empty, 0, false⟩
  | [part] => part
  | last :: before =>
      ⟨before.foldl (fun r p => .seq p.regex r) last.regex,
       (parts.map Part.depth).foldl max 0 + 1, true⟩

/-- Alternatives; the last one comes first. -/
def alternatives (branches : List Part) : Part :=
  match branches with
  | [] => ⟨.empty, 0, false⟩
  | [part] => part
  | last :: before =>
      ⟨before.foldl (fun r p => .alt p.regex r) last.regex,
       (branches.map Part.depth).foldl max 0 + 1, true⟩

/-- How a group opens, with what is left after the opening. -/
inductive Opening where
  | lookAround
  | named (rest : List Char)
  | flagged (rest : List Char)
  | plain

/-- The opening of a group after its parenthesis. -/
def opening : List Char → Opening
  | '?' :: '=' :: _ | '?' :: '!' :: _ | '?' :: '<' :: '=' :: _
  | '?' :: '<' :: '!' :: _ => .lookAround
  | '?' :: 'P' :: '<' :: rest => .named rest
  | '?' :: '<' :: rest => .named rest
  | '?' :: rest => .flagged rest
  | _ => .plain

mutual

/-- Alternatives up to a closing parenthesis or the end; the last one read
    comes first. -/
def readAlternatives : Nat → List Part → Reader Part
  | 0, _ => failure
  | fuel + 1, done => do
      let parts ← readParts fuel []
      let done := sequence parts :: done
      if (← peek) = some '|' then
        bump
        readAlternatives fuel done
      else return alternatives done

/-- Parts up to a bar, a closing parenthesis or the end; the last one comes
    first. -/
def readParts : Nat → List Part → Reader (List Part)
  | 0, _ => failure
  | fuel + 1, parts => do
      skipBlanks
      let s ← get
      match s.rest with
      | [] | '|' :: _ | ')' :: _ => return parts
      | '(' :: _ =>
          let part ← readGroup fuel
          readParts fuel (part :: parts)
      | '[' :: rest =>
          let (set, depth) ← bracketed (2 * rest.length + 4)
          readParts fuel (⟨.char set, depth, true⟩ :: parts)
      | '?' :: _ =>
          let parts ← repeatLast parts 0 (some 1)
          bump; skipLazy
          readParts fuel parts
      | '*' :: _ =>
          let parts ← repeatLast parts 0 none
          bump; skipLazy
          readParts fuel parts
      | '+' :: _ =>
          let parts ← repeatLast parts 1 none
          bump; skipLazy
          readParts fuel parts
      | '\x7b' :: _ =>
          let _ ← repeatLast parts 0 none
          let (least, most) ← readBounds
          skipLazy
          let parts ← repeatLast parts least most
          readParts fuel parts
      | '\\' :: _ =>
          let atom ← escape
          let some r := atomRegex s.flags atom | failure
          readParts fuel (⟨r, 0, true⟩ :: parts)
      | c :: _ =>
          bump
          let r :=
            if c = '.' then atomRegex s.flags .dot
            else if c = '^' then some (.look (caret s.flags))
            else if c = '$' then some (.look (dollar s.flags))
            else atomRegex s.flags (.literal c)
          let some r := r | failure
          readParts fuel (⟨r, 0, true⟩ :: parts)

/-- A group or a setting of flags, at its parenthesis. -/
def readGroup : Nat → Reader Part
  | 0 => failure
  | fuel + 1 => do
      bump; skipBlanks
      let s ← get
      match opening s.rest with
      | .lookAround => failure
      | .named rest =>
          set { s with rest := rest }
          let name ← groupName (rest.length + 1) []
          if name ∈ s.names then failure
          modify fun t => { t with names := name :: t.names }
          closeGroup fuel s.flags
      | .flagged rest =>
          set { s with rest := rest }
          let (flags, bare) ← readFlags (rest.length + 1) [] s.flags
          let c ← next
          bump
          modify fun t => { t with flags := flags }
          if c = ')' then
            if bare then failure
            return ⟨.empty, 0, false⟩
          else closeGroup fuel s.flags
      | .plain => closeGroup fuel s.flags

/-- The inside of a group and its closing parenthesis; `outer` are the flags
    around it. -/
def closeGroup : Nat → Flags → Reader Part
  | 0, _ => failure
  | fuel + 1, outer => do
      let inside ← readAlternatives fuel []
      if (← next) = ')' then
        bump
        modify fun t => { t with flags := outer }
        return ⟨inside.regex, inside.depth + 1, true⟩
      else failure

end

/-- The expression of a pattern, unless the pattern is malformed or too
    large. -/
def compile? (source : String) (ignoreCase : Bool) : Option Regex :=
  let cs := source.toList
  let start : State := { rest := cs, flags := { ignoreCase := ignoreCase } }
  match (readAlternatives (4 * cs.length + 8) []).run start with
  | some (part, s) =>
      if s.rest.isEmpty ∧ part.depth ≤ maxDepth
          ∧ part.regex.weight ≤ maxWeight then
        some part.regex
      else none
  | none => none

end Pattern

end LinkedContracts
