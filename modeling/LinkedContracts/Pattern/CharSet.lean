import LinkedContracts.Text.Case
import LinkedContracts.Text.Script

/-! # Sets of characters in patterns

    A set is known by its members and by its weight, an estimate of the
    number of states it takes in a compiled pattern.  Named sets are the
    classes, categories, scripts and properties a pattern may refer to. -/

namespace LinkedContracts

/-- A set of code points. -/
structure CharSet where
  mem : Nat → Bool
  weight : Nat

namespace CharSet

/-- The empty set. -/
def empty : CharSet := ⟨fun _ => false, 1⟩

/-- All characters. -/
def all : CharSet := ⟨fun _ => true, 12⟩

/-- A range of characters, both ends included. -/
def range (lo hi : Nat) : CharSet :=
  ⟨fun c => decide (lo ≤ c ∧ c ≤ hi), if hi < 128 then 1 else 3⟩

/-- The characters of a table. -/
def ofRanges (r : Ranges) : CharSet := ⟨r.mem, r.length⟩

/-- A single character. -/
def single (c : Char) : CharSet := range c.toNat c.toNat

def union (a b : CharSet) : CharSet :=
  ⟨fun c => a.mem c || b.mem c, a.weight + b.weight⟩

def inter (a b : CharSet) : CharSet :=
  ⟨fun c => a.mem c && b.mem c, a.weight + b.weight⟩

def diff (a b : CharSet) : CharSet :=
  ⟨fun c => a.mem c && !b.mem c, a.weight + b.weight⟩

def symmDiff (a b : CharSet) : CharSet :=
  ⟨fun c => a.mem c != b.mem c, a.weight + b.weight⟩

def compl (a : CharSet) : CharSet := ⟨fun c => !a.mem c, a.weight + 12⟩

/-- The set with every letter in both cases. -/
def folded (a : CharSet) : CharSet :=
  ⟨fun c => (Text.caseVariants c).any a.mem, 2 * a.weight⟩

/-- The set with every ASCII letter in both cases. -/
def foldedAscii (a : CharSet) : CharSet :=
  ⟨fun c => a.mem c
      || (decide (65 ≤ c ∧ c ≤ 90) && a.mem (c + 32))
      || (decide (97 ≤ c ∧ c ≤ 122) && a.mem (c - 32)), 2 * a.weight⟩

/-- Negate on demand. -/
def negateIf (negated : Bool) (a : CharSet) : CharSet :=
  if negated then a.compl else a

/-! ## Classes -/

/-- Decimal digits. -/
def digit : CharSet := ofRanges Category.decimalDigitRanges

/-- White space. -/
def space : CharSet := ofRanges Text.whiteSpace

/-- Word characters. -/
def word : CharSet := ⟨Text.isWord, 800⟩

def asciiDigit : CharSet := range 48 57

def asciiSpace : CharSet := union (range 9 13) (single ' ')

def asciiUpper : CharSet := range 65 90

def asciiLower : CharSet := range 97 122

def asciiAlpha : CharSet := union asciiUpper asciiLower

def asciiAlnum : CharSet := union asciiAlpha asciiDigit

def asciiWord : CharSet := union asciiAlnum (single '_')

/-- The bracketed ASCII classes under their names. -/
def asciiClass? : String → Option CharSet
  | "alnum" => some asciiAlnum
  | "alpha" => some asciiAlpha
  | "ascii" => some (range 0 127)
  | "blank" => some (union (single ' ') (single '\t'))
  | "cntrl" => some (union (range 0 31) (range 127 127))
  | "digit" => some asciiDigit
  | "graph" => some (range 33 126)
  | "lower" => some asciiLower
  | "print" => some (range 32 126)
  | "punct" =>
      some (union (union (range 33 47) (range 58 64))
        (union (range 91 96) (range 123 126)))
  | "space" => some asciiSpace
  | "upper" => some asciiUpper
  | "word" => some asciiWord
  | "xdigit" => some (union asciiDigit (union (range 65 70) (range 97 102)))
  | _ => none

/-! ## Properties -/

/-- A name without case, blanks, hyphens, underscores and a leading `is`. -/
def plainName (name : List Char) : String :=
  let rest : List Char := match name with
    | i :: s :: rest =>
        if i.toLower = 'i' ∧ s.toLower = 's' then rest else name
    | _ => name
  let plain : List Char := (rest.filter fun c =>
    c.toNat < 128 && c != ' ' && c != '_' && c != '-').map Char.toLower
  if rest.length < name.length ∧ plain = ['c'] then "isc"
  else String.ofList plain

/-- The union of categories. -/
def ofCategories (cats : List Category) : CharSet :=
  ⟨Text.inCategories cats, cats.foldl (fun n c => n + c.ranges.length) 0⟩

/-- General categories under their names. -/
def categoryGroups : List (List String × List Category) :=
  [(["l", "letter"], Text.letters),
   (["lc", "casedletter"], [.upper, .lower, .title]),
   (["lu", "uppercaseletter"], [.upper]),
   (["ll", "lowercaseletter"], [.lower]),
   (["lt", "titlecaseletter"], [.title]),
   (["lm", "modifierletter"], [.modifierLetter]),
   (["lo", "otherletter"], [.otherLetter]),
   (["m", "mark", "combiningmark"], Text.marks),
   (["mn", "nonspacingmark"], [.nonspacing]),
   (["mc", "spacingmark"], [.spacingMark]),
   (["me", "enclosingmark"], [.enclosing]),
   (["n", "number"], Text.numbers),
   (["nd", "decimalnumber", "digit"], [.decimalDigit]),
   (["nl", "letternumber"], [.letterNumber]),
   (["no", "othernumber"], [.otherNumber]),
   (["p", "punctuation", "punct"],
     [.connector, .dash, .openMark, .closeMark, .initialQuote, .finalQuote,
      .otherMark]),
   (["pc", "connectorpunctuation"], [.connector]),
   (["pd", "dashpunctuation"], [.dash]),
   (["ps", "openpunctuation"], [.openMark]),
   (["pe", "closepunctuation"], [.closeMark]),
   (["pi", "initialpunctuation"], [.initialQuote]),
   (["pf", "finalpunctuation"], [.finalQuote]),
   (["po", "otherpunctuation"], [.otherMark]),
   (["s", "symbol"], [.mathSymbol, .currency, .modifierSymbol, .otherSymbol]),
   (["sm", "mathsymbol"], [.mathSymbol]),
   (["sc", "currencysymbol"], [.currency]),
   (["sk", "modifiersymbol"], [.modifierSymbol]),
   (["so", "othersymbol"], [.otherSymbol]),
   (["z", "separator"], [.space, .lineSeparator, .paragraphSeparator]),
   (["zs", "spaceseparator"], [.space]),
   (["zl", "lineseparator"], [.lineSeparator]),
   (["zp", "paragraphseparator"], [.paragraphSeparator]),
   (["c", "other"], [.control, .format, .privateUse, .unassigned]),
   (["cc", "control", "cntrl"], [.control]),
   (["cf", "format"], [.format]),
   (["cs", "surrogate"], []),
   (["co", "privateuse"], [.privateUse]),
   (["cn", "unassigned"], [.unassigned])]

/-- The set of a general category name. -/
def category? (name : String) : Option CharSet :=
  match name with
  | "any" => some all
  | "ascii" => some (range 0 127)
  | "assigned" => some (ofCategories [.unassigned]).compl
  | _ =>
      (categoryGroups.find? fun g => g.1.contains name).map
        fun g => ofCategories g.2

/-- The set of a script name. -/
def script? (name : String) : Option CharSet :=
  (Script.byName.find? fun g => g.1.contains name).map
    fun g => ofRanges g.2

/-- The set of a property that characters have or have not. -/
def property? : String → Option CharSet
  | "alphabetic" | "alpha" => some ⟨Text.isAlphabetic, 730⟩
  | "lowercase" | "lower" => some ⟨Text.isLowercase, 670⟩
  | "uppercase" | "upper" => some ⟨Text.isUppercase, 650⟩
  | "cased" => some ⟨Text.isCased, 160⟩
  | "caseignorable" | "ci" => some ⟨Text.isCaseIgnorable, 430⟩
  | "whitespace" | "wspace" | "space" => some space
  | "emoji" => some (ofRanges Text.emoji)
  | "joincontrol" | "joinc" => some (ofRanges Text.joinControl)
  | _ => none

/-- The set of a single name: a property, a category or a script. -/
def named? (name : List Char) : Option CharSet :=
  let plain := plainName name
  let byProperty :=
    if plain = "cf" ∨ plain = "sc" ∨ plain = "lc" then none
    else property? plain
  (byProperty.orElse fun _ => category? plain).orElse fun _ => script? plain

/-- The set of a property name and its value. -/
def valued? (name value : List Char) : Option CharSet :=
  match plainName name with
  | "generalcategory" | "gc" => category? (plainName value)
  | "script" | "sc" => script? (plainName value)
  | "scriptextensions" | "scx" => script? (plainName value)
  | _ => none

end CharSet

end LinkedContracts
